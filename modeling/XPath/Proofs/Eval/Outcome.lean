import Mathlib.Data.List.Forall2
import XPath.Eval.Basic
/-! Outcomes of evaluations: of one that is certain to have a result, and of two side by side, which
either fail alike or have related results. -/
namespace XPath
set_option autoImplicit false

variable {α β γ δ : Type} {P : α → Prop} {Q : β → Prop} {R : α → β → Prop} {S : γ → δ → Prop}

/-! ## One evaluation -/

/-- The evaluation has a result, with the property `P`. -/
def Succeeds (P : α → Prop) (m : Except EvalError α) : Prop := ∃ a, m = .ok a ∧ P a

namespace Succeeds

theorem ok {a : α} (ha : P a) : Succeeds P (.ok a) := ⟨a, rfl, ha⟩

theorem bind {m : Except EvalError α} {g : α → Except EvalError β} (hm : Succeeds P m)
    (hg : ∀ a, P a → Succeeds Q (g a)) : Succeeds Q (m >>= g) := by
  obtain ⟨a, rfl, ha⟩ := hm
  exact hg a ha

end Succeeds

/-! ## Two evaluations -/

/-- The same failure, or results in the relation `R`. -/
inductive SameOutcome (R : α → β → Prop) : Except EvalError α → Except EvalError β → Prop
  | error (e : EvalError) : SameOutcome R (.error e) (.error e)
  | ok {a : α} {b : β} : R a b → SameOutcome R (.ok a) (.ok b)

namespace SameOutcome

theorem bind {m : Except EvalError α} {m' : Except EvalError β} {g : α → Except EvalError γ}
    {g' : β → Except EvalError δ} (hm : SameOutcome R m m')
    (hg : ∀ a b, R a b → SameOutcome S (g a) (g' b)) : SameOutcome S (m >>= g) (m' >>= g') := by
  cases hm with
  | error e => exact .error e
  | ok hab => exact hg _ _ hab

theorem bind_eq {m : Except EvalError α} {m' : Except EvalError β} {g : α → Except EvalError γ}
    {g' : β → Except EvalError γ} (hm : SameOutcome R m m') (hg : ∀ a b, R a b → g a = g' b) :
    (m >>= g) = (m' >>= g') := by
  cases hm with
  | error e => rfl
  | ok hab => exact hg _ _ hab

theorem of_eq {m m' : Except EvalError α} (h : m = m') : SameOutcome Eq m m' := by
  subst h
  cases m with
  | error e => exact .error e
  | ok a => exact .ok rfl

theorem of_error {e e' : EvalError} (h : e = e') : SameOutcome R (.error e) (.error e') :=
  h ▸ .error e

end SameOutcome

/-- Two values of one kind: equal scalars, or lists of nodes in the relation `N`. -/
inductive Value.Related (N : List NodeId → List NodeId → Prop) : Value → Value → Prop
  | nodes {ids ids' : List NodeId} : N ids ids' → Related N (.nodes ids) (.nodes ids')
  | string {s s' : String} : s = s' → Related N (.string s) (.string s')
  | number {n n' : Number} : n = n' → Related N (.number n) (.number n')
  | boolean {b b' : Bool} : b = b' → Related N (.boolean b) (.boolean b')

/-! ## Steps -/

section Select

variable {scope : Scope} {axis : Axis} {test : NodeTest} {ids : List NodeId}
  {narrow : List NodeId → Except EvalError (List NodeId)}

theorem select_namespaceNode :
    scope.select .namespaceNode test narrow ids = .error (.unsupportedAxis .namespaceNode) := rfl

theorem select_of_ne (haxis : axis ≠ .namespaceNode) :
    scope.select axis test narrow ids = (do
      let qualification ← test.qualification scope.resolver
      let found ← gather
        (fun id => narrow ((axis.nodes scope.document id).filter
          (test.passes scope.document axis qualification))) ids
      return if ids.length = 1 && !axis.isReverse then found
        else scope.document.inOrder found) := by
  unfold Scope.select
  rw [if_neg haxis]

theorem select_of_gather {qualification : Qualification} {found : List NodeId}
    (haxis : axis ≠ .namespaceNode)
    (hqualification : test.qualification scope.resolver = .ok qualification)
    (hfound : gather (fun id => narrow ((axis.nodes scope.document id).filter
      (test.passes scope.document axis qualification))) ids = .ok found) :
    scope.select axis test narrow ids = .ok (if ids.length = 1 && !axis.isReverse then found
      else scope.document.inOrder found) := by
  rw [select_of_ne haxis, hqualification]
  show (do
    let found ← gather _ ids
    return if ids.length = 1 && !axis.isReverse then found else scope.document.inOrder found) = _
  rw [hfound]
  rfl

variable {resolver : Option Resolver}

/-- Where the resolver, if there is one, knows the prefix of a test, the test can be made. -/
theorem exists_qualification
    (h : ∀ resolve ∈ resolver, ∀ qualifier ∈ test.qualifier?, (resolve qualifier).isSome) :
    ∃ qualification, test.qualification resolver = .ok qualification := by
  unfold NodeTest.qualification
  cases hq : test.qualifier? with
  | none => exact ⟨.any, rfl⟩
  | some qualifier =>
    cases hr : resolver with
    | none => exact ⟨.written qualifier, rfl⟩
    | some resolve =>
      obtain ⟨uri, huri⟩ := Option.isSome_iff_exists.mp (h resolve hr qualifier hq)
      simp only [huri]
      exact ⟨.uri uri, rfl⟩

theorem qualification_of_unresolved {resolve : Resolver} {qualifier : String}
    (htest : test.qualifier? = some qualifier) (hnone : resolve qualifier = none) :
    test.qualification (some resolve) = .error (.unknownQualifier qualifier) := by
  unfold NodeTest.qualification
  simp only [htest, hnone]

end Select

/-! ## Lists of nodes -/

variable {r : NodeId → NodeId → Prop} {ids ids' : List NodeId}

theorem sameOutcome_keepWhere {test test' : NodeId → Nat → Except EvalError Bool} {position : Nat}
    (htest : ∀ x x' position, r x x' → SameOutcome Eq (test x position) (test' x' position))
    (hids : List.Forall₂ r ids ids') :
    SameOutcome (List.Forall₂ r) (keepWhere test position ids) (keepWhere test' position ids') := by
  induction hids generalizing position with
  | nil => exact .ok .nil
  | cons hx _ ih =>
    rw [keepWhere, keepWhere]
    refine (htest _ _ position hx).bind fun keep keep' hkeep => ih.bind fun kept kept' hkept => ?_
    subst hkeep
    cases keep with
    | true => exact .ok (hkept.cons hx)
    | false => exact .ok hkept

theorem sameOutcome_gather {select select' : NodeId → Except EvalError (List NodeId)}
    (hselect : ∀ x x', r x x' → SameOutcome (List.Forall₂ r) (select x) (select' x'))
    (hids : List.Forall₂ r ids ids') :
    SameOutcome (List.Forall₂ r) (gather select ids) (gather select' ids') := by
  induction hids with
  | nil => exact .ok .nil
  | cons hx _ ih =>
    rw [gather, gather]
    refine (hselect _ _ hx).bind fun first first' hfirst => ih.bind fun rest rest' hrest => ?_
    exact .ok (List.rel_append hfirst hrest)

end XPath
