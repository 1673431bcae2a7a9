import XPath.Expr.WellTyped
import XPath.Proofs.Eval.Descendant
/-! Steps that can never be taken: along the namespace axis, or with a prefix that the resolver does
not know. Such a step looks at its axis and its prefix before it looks at any node, and a path takes
its steps also when nothing is left to take them from, so that the path fails whatever is selected on
the way. -/
namespace XPath
set_option autoImplicit false

variable {scope : Scope} {resolver : Option Resolver} {axis : Axis} {test : NodeTest}
  {predicates : List Expr} {step : Step} {error : EvalError}

/-- The step is refused with this error wherever it is taken. The axis is looked at first. -/
inductive Step.Refused (resolver : Option Resolver) : Step → EvalError → Prop
  | axis (test : NodeTest) (predicates : List Expr) :
    Refused resolver (.mk .namespaceNode test predicates) (.unsupportedAxis .namespaceNode)
  | qualifier {axis : Axis} {test : NodeTest} {resolve : Resolver} {qualifier : String}
      (predicates : List Expr) (haxis : axis ≠ .namespaceNode) (hresolver : resolver = some resolve)
      (htest : test.qualifier? = some qualifier) (hnone : resolve qualifier = none) :
    Refused resolver (.mk axis test predicates) (.unknownQualifier qualifier)

/-! ## Single steps -/

/-- A step is refused unless it fits. -/
theorem exists_refused_iff : (∃ error, step.Refused resolver error) ↔ ¬ step.Fits resolver := by
  constructor
  · rintro ⟨error, h⟩ hfits
    cases h with
    | axis => exact hfits.1 rfl
    | qualifier predicates _ hresolver htest hnone =>
      have hsome := hfits.2 _ hresolver _ htest
      rw [hnone] at hsome
      cases hsome
  · intro h
    cases step with
    | mk axis test predicates =>
      by_cases haxis : axis = .namespaceNode
      · subst haxis
        exact ⟨_, .axis test predicates⟩
      · have hfits := not_and.mp h haxis
        push Not at hfits
        obtain ⟨resolve, hresolver, qualifier, htest, hnone⟩ := hfits
        exact ⟨_, .qualifier predicates haxis hresolver htest (by simpa using hnone)⟩

/-- A refused step fails before it looks at a node. -/
theorem Step.Refused.evaluate (h : step.Refused scope.resolver error) (ids : List NodeId) :
    step.evaluate scope ids = .error error := by
  generalize hr : scope.resolver = resolver at h
  cases h with
  | axis test predicates => rw [Step.evaluate, select_namespaceNode]
  | qualifier predicates haxis hresolver htest hnone =>
    rw [Step.evaluate, select_of_ne haxis, hr, hresolver, qualification_of_unresolved htest hnone]
    rfl

/-! ## Paths -/

/-- A path with a refused step has the failure of what stands before it, or else that of the step. -/
theorem Step.Refused.path (h : step.Refused scope.resolver error) (focus : Focus) (start : Start)
    (before after : List Step) : (Expr.path start (before ++ step :: after)).evaluate scope focus =
      (do let _ ← (Expr.path start before).evaluate scope focus; .error error) := by
  simp only [Expr.evaluate, walk_append, walk, h.evaluate, bind_assoc]
  refine bind_congr fun ids => bind_congr fun found => ?_
  rfl

/-- A path with a step that does not fit never has a value, whatever the other steps select. Where the
start and the steps before it have one, the path fails because of the axis, which is looked at first,
or because of the prefix; otherwise it fails as they do. -/
theorem unfit_steps_fail (h : ¬ (Step.mk axis test predicates).Fits scope.resolver) (focus : Focus)
    (start : Start) (before after : List Step) :
    let outcome :=
      (Expr.path start (before ++ .mk axis test predicates :: after)).evaluate scope focus
    (∀ value, outcome ≠ .ok value) ∧
      (∀ failure, (Expr.path start before).evaluate scope focus = .error failure →
        outcome = .error failure) ∧
      ∀ value, (Expr.path start before).evaluate scope focus = .ok value →
        (axis = .namespaceNode → outcome = .error (.unsupportedAxis .namespaceNode)) ∧
        (axis ≠ .namespaceNode → ∃ resolve qualifier, scope.resolver = some resolve ∧
          test.qualifier? = some qualifier ∧ resolve qualifier = none ∧
          outcome = .error (.unknownQualifier qualifier)) := by
  intro outcome
  obtain ⟨error, hrefused⟩ := exists_refused_iff.mpr h
  have hpath : outcome = _ := hrefused.path focus start before after
  refine ⟨fun value => ?_, fun failure hfailure => ?_, fun value hvalue => ?_⟩
  · rw [hpath]
    cases (Expr.path start before).evaluate scope focus <;> exact fun he => nomatch he
  · rw [hpath, hfailure]
    rfl
  · rw [hvalue] at hpath
    generalize hr : scope.resolver = resolver at hrefused
    cases hrefused with
    | axis => exact ⟨fun _ => hpath, fun hne => absurd rfl hne⟩
    | qualifier _ haxis hresolver htest hnone =>
      exact ⟨fun heq => absurd heq haxis, fun _ => ⟨_, _, hresolver, htest, hnone, hpath⟩⟩

/-- Nothing is selected by the first step; the second one is refused for its axis although its prefix
is unknown as well, and without that axis for the prefix. -/
theorem unfit_steps_fail_of_nothing_left :
    let scope := Scope.startingAt .empty Document.root .core (fun _ => none) (some fun _ => none)
    let first : Step := .mk .child (.name ⟨none, "a"⟩) []
    let test : NodeTest := .name ⟨some "p", "b"⟩
    (Expr.path .context [first]).evaluate scope (.on Document.root) = .ok (.nodes []) ∧
      ¬ (Step.mk .namespaceNode test []).Fits scope.resolver ∧
      ¬ (Step.mk .child test []).Fits scope.resolver ∧
      (Expr.path .context [first, .mk .namespaceNode test [], first]).evaluate scope
        (.on Document.root) = .error (.unsupportedAxis .namespaceNode) ∧
      (Expr.path .context [first, .mk .child test [], first]).evaluate scope (.on Document.root) =
        .error (.unknownQualifier "p") := by
  intro scope first test
  have hnone : (Expr.path .context [first]).evaluate scope (.on Document.root) = .ok (.nodes []) := by
    decide
  have haxis : ¬ (Step.mk .namespaceNode test []).Fits scope.resolver := fun h => h.1 rfl
  have hprefix : ¬ (Step.mk .child test []).Fits scope.resolver :=
    fun h => absurd (h.2 _ rfl "p" rfl) (by decide)
  refine ⟨hnone, haxis, hprefix, ?_, ?_⟩
  · exact ((unfit_steps_fail haxis _ .context [first] [first]).2.2 _ hnone).1 rfl
  · obtain ⟨_, _, -, htest, -, hfails⟩ :=
      ((unfit_steps_fail hprefix _ .context [first] [first]).2.2 _ hnone).2 (by decide)
    obtain rfl := Option.some.inj htest
    exact hfails

end XPath
