import XPath.Eval.Trace
import XPath.Proofs.Eval.Predicate
/-! The record of an evaluation. Leaving it out gives the evaluation itself. A set of nodes has all
foci in it if it has those of each part, given that it has the nodes that the parts before it have
selected; and predicates that succeed have set a focus on every candidate. -/
namespace XPath
set_option autoImplicit false

variable {scope : Scope} {focus : Focus} {ids : List NodeId} {T : Set NodeId}

/-! ## Records -/

namespace Traced

variable {α β : Type} {P : α → Prop} {Q : β → Prop}

theorem outcome_bind (first : Traced α) (next : α → Traced β) :
    (first >>= next).outcome = first.outcome >>= fun a => (next a).outcome := by
  show (first.andThen next).outcome = _
  unfold andThen
  cases first.outcome with
  | error e => rfl
  | ok a => rfl

theorem foci_subset_bind {first : Traced α} {next : α → Traced β} :
    first.foci ⊆ (first >>= next).foci := by
  show first.foci ⊆ (first.andThen next).foci
  unfold andThen
  cases first.outcome with
  | error e => exact List.Subset.refl _
  | ok a => exact List.subset_append_left _ _

theorem foci_subset_bind_of_ok {first : Traced α} {next : α → Traced β} {a : α}
    (h : first.outcome = .ok a) : (next a).foci ⊆ (first >>= next).foci := by
  show (next a).foci ⊆ (first.andThen next).foci
  unfold andThen
  rw [h]
  exact List.subset_append_right _ _

/-- Every focus is on a node of `T`, and the value, if there is one, has the property `P`. -/
structure Within (T : Set NodeId) (P : α → Prop) (t : Traced α) : Prop where
  foci : ∀ focus ∈ t.foci, focus.node ∈ T
  value : ∀ a, t.outcome = .ok a → P a

theorem within_ofOutcome {outcome : Except EvalError α} (h : ∀ a, outcome = .ok a → P a) :
    (ofOutcome outcome).Within T P :=
  ⟨fun _ hfocus => absurd hfocus List.not_mem_nil, h⟩

theorem within_pure {a : α} (h : P a) : (pure a : Traced α).Within T P :=
  within_ofOutcome fun _ he => Except.ok.inj he ▸ h

theorem Within.bind {first : Traced α} {next : α → Traced β} (hfirst : first.Within T P)
    (hnext : ∀ a, P a → (next a).Within T Q) : (first >>= next).Within T Q := by
  show (first.andThen next).Within T Q
  unfold andThen
  cases houtcome : first.outcome with
  | error e => exact ⟨hfirst.foci, fun _ he => nomatch he⟩
  | ok a =>
    have ha := hnext a (hfirst.value a houtcome)
    refine ⟨fun focus hfocus => ?_, ha.value⟩
    exact (List.mem_append.mp hfocus).elim (hfirst.foci focus) (ha.foci focus)

theorem Within.inFocus {rest : Traced α} (hfocus : focus.node ∈ T) (h : rest.Within T P) :
    (rest.inFocus focus).Within T P :=
  ⟨List.forall_mem_cons.mpr ⟨hfocus, h.foci⟩, h.value⟩

end Traced

/-! ## The outcome of a traced evaluation -/

theorem outcome_keepTraced {test : NodeId → Nat → Traced Bool} {position : Nat} :
    (keepTraced test position ids).outcome =
      keepWhere (fun id position => (test id position).outcome) position ids := by
  induction ids generalizing position with
  | nil => rfl
  | cons id rest ih =>
    rw [keepTraced, keepWhere, Traced.outcome_bind]
    refine bind_congr fun keep => ?_
    rw [Traced.outcome_bind, ih]
    rfl

theorem outcome_gatherTraced {select : NodeId → Traced (List NodeId)} :
    (gatherTraced select ids).outcome = gather (fun id => (select id).outcome) ids := by
  induction ids with
  | nil => rfl
  | cons id rest ih =>
    rw [gatherTraced, gather, Traced.outcome_bind]
    refine bind_congr fun first => ?_
    rw [Traced.outcome_bind, ih]
    rfl

theorem outcome_selectTraced {axis : Axis} {test : NodeTest}
    {narrow : List NodeId → Traced (List NodeId)} :
    (scope.selectTraced axis test narrow ids).outcome =
      scope.select axis test (fun l => (narrow l).outcome) ids := by
  unfold Scope.selectTraced
  split
  · next haxis =>
    subst haxis
    rfl
  · next haxis =>
    rw [select_of_ne haxis, Traced.outcome_bind]
    refine bind_congr fun qualification => ?_
    rw [Traced.outcome_bind, outcome_gatherTraced]
    rfl

mutual

/-- With or without the record, an evaluation has the same outcome. -/
theorem outcome_traced (scope : Scope) (focus : Focus) (e : Expr) :
    (e.traced scope focus).outcome = e.evaluate scope focus := by
  cases e with
  | literal text => rfl
  | number value => rfl
  | reference name => rfl
  | call function args =>
    rw [Expr.traced, Expr.evaluate, Traced.outcome_bind, outcome_tracedAll scope focus args]
    rfl
  | negate operand =>
    rw [Expr.traced, Expr.evaluate, Traced.outcome_bind, outcome_traced scope focus operand]
    rfl
  | binary op left right =>
    rw [Expr.traced, Expr.evaluate, Traced.outcome_bind, outcome_traced scope focus left]
    refine bind_congr fun first => ?_
    cases op.shortcut? first with
    | some decided => rfl
    | none =>
      show Traced.outcome (right.traced scope focus >>= fun second =>
        Traced.ofOutcome (op.apply scope.document first second)) = _
      rw [Traced.outcome_bind, outcome_traced scope focus right]
      rfl
  | filter primary predicates =>
    rw [Expr.traced, Expr.evaluate, Traced.outcome_bind, outcome_traced scope focus primary]
    refine bind_congr fun value => ?_
    rw [Traced.outcome_bind]
    refine bind_congr fun members => ?_
    rw [Traced.outcome_bind, outcome_narrowTraced scope predicates]
    rfl
  | path start steps =>
    rw [Expr.traced, Expr.evaluate, Traced.outcome_bind, outcome_startTraced scope focus start]
    refine bind_congr fun first => ?_
    rw [Traced.outcome_bind, outcome_walkTraced scope steps]
    rfl

theorem outcome_startTraced (scope : Scope) (focus : Focus) (start : Start) :
    (start.traced scope focus).outcome = start.evaluate scope focus := by
  cases start with
  | context => rfl
  | root => rfl
  | nodes primary =>
    rw [Start.traced, Start.evaluate, Traced.outcome_bind, outcome_traced scope focus primary]
    refine bind_congr fun value => ?_
    rw [Traced.outcome_bind]
    rfl

theorem outcome_stepTraced (scope : Scope) (step : Step) (ids : List NodeId) :
    (step.traced scope ids).outcome = step.evaluate scope ids := by
  cases step with
  | mk axis test predicates =>
    rw [Step.traced, Step.evaluate, outcome_selectTraced]
    refine congrArg (scope.select axis test · ids) (funext fun candidates => ?_)
    exact outcome_narrowTraced scope predicates candidates

theorem outcome_tracedAll (scope : Scope) (focus : Focus) (exprs : List Expr) :
    (tracedAll scope focus exprs).outcome = evaluateAll scope focus exprs := by
  cases exprs with
  | nil => rfl
  | cons e rest =>
    rw [tracedAll, evaluateAll, Traced.outcome_bind, outcome_traced scope focus e]
    refine bind_congr fun value => ?_
    rw [Traced.outcome_bind, outcome_tracedAll scope focus rest]
    rfl

theorem outcome_narrowTraced (scope : Scope) (predicates : List Expr) (ids : List NodeId) :
    (narrowTraced scope predicates ids).outcome = narrow scope predicates ids := by
  cases predicates with
  | nil => rfl
  | cons predicate rest =>
    have htest : (fun id position => (Traced.inFocus ⟨id, position, ids.length⟩ do
          return (← predicate.traced scope ⟨id, position, ids.length⟩).selects position).outcome) =
        fun id position => do
          return (← predicate.evaluate scope ⟨id, position, ids.length⟩).selects position := by
      funext id position
      rw [Traced.inFocus, Traced.outcome_bind, outcome_traced scope _ predicate]
      rfl
    rw [narrowTraced, narrow, Traced.outcome_bind, outcome_keepTraced, htest]
    exact bind_congr fun kept => outcome_narrowTraced scope rest kept

theorem outcome_walkTraced (scope : Scope) (steps : List Step) (ids : List NodeId) :
    (walkTraced scope steps ids).outcome = walk scope steps ids := by
  cases steps with
  | nil => rfl
  | cons step rest =>
    rw [walkTraced, walk, Traced.outcome_bind, outcome_stepTraced scope step]
    exact bind_congr fun found => outcome_walkTraced scope rest found

end

/-! ## Lists of nodes -/

theorem within_keepTraced {test : NodeId → Nat → Traced Bool} {position : Nat}
    (htest : ∀ id ∈ ids, ∀ position, (test id position).Within T fun _ => True) :
    (keepTraced test position ids).Within T fun found => ∀ x ∈ found, x ∈ ids := by
  induction ids generalizing position with
  | nil => exact Traced.within_pure fun _ hx => hx
  | cons id rest ih =>
    obtain ⟨hid, hrest⟩ := List.forall_mem_cons.mp htest
    refine (hid position).bind fun keep _ => (ih hrest).bind fun kept hkept => ?_
    refine Traced.within_pure fun x hx => ?_
    cases keep with
    | false => exact List.mem_cons_of_mem id (hkept x hx)
    | true => exact List.mem_cons.mpr ((List.mem_cons.mp hx).imp_right (hkept x))

theorem within_gatherTraced {select : NodeId → Traced (List NodeId)}
    (hselect : ∀ id ∈ ids, (select id).Within T fun found => ∀ x ∈ found, x ∈ T) :
    (gatherTraced select ids).Within T fun found => ∀ x ∈ found, x ∈ T := by
  induction ids with
  | nil => exact Traced.within_pure fun _ hx => absurd hx List.not_mem_nil
  | cons id rest ih =>
    obtain ⟨hid, hrest⟩ := List.forall_mem_cons.mp hselect
    refine hid.bind fun first hfirst => (ih hrest).bind fun others hothers => ?_
    exact Traced.within_pure (List.forall_mem_append.mpr ⟨hfirst, hothers⟩)

/-! ## The foci of a filter -/

/-- A selection that succeeds has tried its test on every node. -/
theorem exists_subset_foci_keepTraced {test : NodeId → Nat → Traced Bool} {position : Nat}
    {found : List NodeId} (he : (keepTraced test position ids).outcome = .ok found) {x : NodeId}
    (hx : x ∈ ids) :
    ∃ position', (test x position').foci ⊆ (keepTraced test position ids).foci := by
  induction ids generalizing position found with
  | nil => exact absurd hx List.not_mem_nil
  | cons id rest ih =>
    rw [keepTraced, Traced.outcome_bind] at he
    obtain ⟨keep, hkeep, he⟩ := bind_eq_ok he
    rw [Traced.outcome_bind] at he
    obtain ⟨kept, hkept, -⟩ := bind_eq_ok he
    rw [keepTraced]
    rcases List.mem_cons.mp hx with rfl | hx
    · exact ⟨position, Traced.foci_subset_bind⟩
    · obtain ⟨position', hsubset⟩ := ih hkept hx
      refine ⟨position', fun f hf => Traced.foci_subset_bind_of_ok hkeep ?_⟩
      exact Traced.foci_subset_bind (hsubset hf)

/-- Where predicates succeed, the first of them has been tried on every node. -/
theorem exists_focus_of_narrow {predicate : Expr} {rest : List Expr} {found : List NodeId}
    (he : narrow scope (predicate :: rest) ids = .ok found) {x : NodeId} (hx : x ∈ ids) :
    ∃ f ∈ (narrowTraced scope (predicate :: rest) ids).foci, f.node = x := by
  rw [← outcome_narrowTraced, narrowTraced, Traced.outcome_bind] at he
  obtain ⟨kept, hkept, -⟩ := bind_eq_ok he
  obtain ⟨position, hsubset⟩ := exists_subset_foci_keepTraced hkept hx
  rw [narrowTraced]
  exact ⟨_, Traced.foci_subset_bind (hsubset List.mem_cons_self), rfl⟩

/-- A filter on a variable tries its predicate on every member of the variable's value. -/
theorem exists_focus_of_variable {name : String} (hname : scope.bindings name = some (.nodes ids))
    {x : NodeId} (hx : x ∈ scope.document.inOrder ids) :
    ∃ f ∈ ((Expr.filter (.reference name) [.literal "t"]).traced scope focus).foci, f.node = x := by
  have hvalue : ((Expr.reference name).traced scope focus).outcome = .ok (.nodes ids) := by
    rw [outcome_traced, Expr.evaluate, hname]
  have hnarrow : ∀ l : List NodeId, narrow scope [.literal "t"] l = .ok l := by
    intro l
    have hall : keepWhere (fun _ _ => .ok true) 1 l = .ok l := keepWhere_true
    rw [narrow]
    exact congrArg (· >>= narrow scope []) hall
  obtain ⟨f, hf, hnode⟩ := exists_focus_of_narrow (hnarrow _) hx
  refine ⟨f, ?_, hnode⟩
  rw [Expr.traced]
  refine Traced.foci_subset_bind_of_ok hvalue (Traced.foci_subset_bind_of_ok rfl ?_)
  exact Traced.foci_subset_bind hf

end XPath
