import XPath.Proofs.Eval.NodeSets
import XPath.Proofs.Eval.Variables
/-! Unions and the steps that lead on from them. What a step selects is the union of what it selects
from each node on its own, and it fails if and only if it fails at one of them. So steps may be
taken from two lists separately, and the results united afterwards. -/
namespace XPath
set_option autoImplicit false

open Document

variable {scope : Scope} {focus : Focus} {ids found a b : List NodeId} {x : NodeId}

/-! ## Gathering -/

theorem exists_gather_iff {select : NodeId → Except EvalError (List NodeId)} :
    (∃ found, gather select ids = .ok found) ↔
      ∀ id ∈ ids, ∃ selected, select id = .ok selected := by
  induction ids with
  | nil => exact iff_of_true ⟨[], rfl⟩ (fun _ h => nomatch h)
  | cons id rest ih =>
    rw [List.forall_mem_cons, ← ih]
    constructor
    · rintro ⟨found, he⟩
      rw [gather] at he
      obtain ⟨first, hfirst, he⟩ := bind_eq_ok he
      obtain ⟨others, hothers, -⟩ := bind_eq_ok he
      exact ⟨⟨first, hfirst⟩, others, hothers⟩
    · rintro ⟨⟨first, hfirst⟩, others, hothers⟩
      refine ⟨first ++ others, ?_⟩
      rw [gather, hfirst, hothers]
      rfl

theorem mem_gather {select : NodeId → Except EvalError (List NodeId)}
    (he : gather select ids = .ok found) :
    x ∈ found ↔ ∃ id ∈ ids, ∃ selected, select id = .ok selected ∧ x ∈ selected := by
  refine ⟨fun hx => mem_of_gather he hx, ?_⟩
  rintro ⟨id, hid, selected, hselected, hx⟩
  induction ids generalizing found with
  | nil => cases hid
  | cons first rest ih =>
    rw [gather] at he
    obtain ⟨chosen, hchosen, he⟩ := bind_eq_ok he
    obtain ⟨others, hothers, he⟩ := bind_eq_ok he
    obtain rfl := Except.ok.inj he
    rcases List.mem_cons.mp hid with rfl | hid
    · obtain rfl := Except.ok.inj (hselected.symm.trans hchosen)
      exact List.mem_append_left _ hx
    · exact List.mem_append_right _ (ih hothers hid)

/-! ## Steps -/

/-- What a step selects from one node. -/
def Scope.selectFrom (scope : Scope) (axis : Axis) (qualification : Qualification) (test : NodeTest)
    (predicates : List Expr) (id : NodeId) : Except EvalError (List NodeId) :=
  narrow scope predicates
    ((axis.nodes scope.document id).filter (test.passes scope.document axis qualification))

section Step

variable {axis : Axis} {test : NodeTest} {predicates : List Expr}

/-- A step succeeds if and only if it can be taken in this scope and succeeds at every node. -/
theorem exists_step_iff :
    (∃ found, (Step.mk axis test predicates).evaluate scope ids = .ok found) ↔
      axis ≠ .namespaceNode ∧ ∃ qualification,
        test.qualification scope.resolver = .ok qualification ∧
        ∀ id ∈ ids, ∃ selected,
          scope.selectFrom axis qualification test predicates id = .ok selected := by
  rw [Step.evaluate]
  by_cases haxis : axis = .namespaceNode
  · subst haxis
    refine iff_of_false ?_ fun h => h.1 rfl
    rintro ⟨found, he⟩
    rw [select_namespaceNode] at he
    cases he
  constructor
  · rintro ⟨found, he⟩
    rw [select_of_ne haxis] at he
    obtain ⟨qualification, hqualification, he⟩ := bind_eq_ok he
    obtain ⟨gathered, hgathered, -⟩ := bind_eq_ok he
    exact ⟨haxis, qualification, hqualification, exists_gather_iff.mp ⟨gathered, hgathered⟩⟩
  · rintro ⟨-, qualification, hqualification, hall⟩
    obtain ⟨gathered, hgathered⟩ := exists_gather_iff.mpr hall
    exact ⟨_, select_of_gather haxis hqualification hgathered⟩

theorem lt_size_of_selectFrom {qualification : Qualification} {id : NodeId} {selected : List NodeId}
    (h : scope.document.WellFormed) (hid : id.index < scope.document.size)
    (he : scope.selectFrom axis qualification test predicates id = .ok selected)
    (hx : x ∈ selected) : x.index < scope.document.size := by
  have hsublist := (narrow_sublist he).trans List.filter_sublist
  exact h.lt_size_of_mem_axis hid (hsublist.subset hx)

/-- A step selects from lists of any identifiers; the nodes among what it selects are these. -/
theorem mem_step_of_lt (h : scope.document.WellFormed) (hx : x.index < scope.document.size)
    (he : (Step.mk axis test predicates).evaluate scope ids = .ok found) :
    x ∈ found ↔ ∃ qualification, test.qualification scope.resolver = .ok qualification ∧
      ∃ id ∈ ids, ∃ selected,
        scope.selectFrom axis qualification test predicates id = .ok selected ∧ x ∈ selected := by
  have haxis := (exists_step_iff.mp ⟨found, he⟩).1
  rw [Step.evaluate, select_of_ne haxis] at he
  obtain ⟨qualification, hqualification, he⟩ := bind_eq_ok he
  obtain ⟨gathered, hgathered, he⟩ := bind_eq_ok he
  have hmem : x ∈ gathered ↔ ∃ id ∈ ids, ∃ selected,
      scope.selectFrom axis qualification test predicates id = .ok selected ∧ x ∈ selected :=
    mem_gather hgathered
  -- Putting the selection in order keeps all nodes in it.
  have hfound : x ∈ found ↔ x ∈ gathered := by
    obtain rfl := Except.ok.inj he
    split
    · rfl
    · rw [h.mem_inOrder]
      exact and_iff_left hx
  rw [hfound, hmem, hqualification]
  constructor
  · exact fun hx => ⟨qualification, rfl, hx⟩
  · rintro ⟨_, ⟨⟩, hx⟩
    exact hx

theorem mem_step (h : scope.document.WellFormed) (hids : ∀ id ∈ ids, id.index < scope.document.size)
    (he : (Step.mk axis test predicates).evaluate scope ids = .ok found) :
    x ∈ found ↔ ∃ qualification, test.qualification scope.resolver = .ok qualification ∧
      ∃ id ∈ ids, ∃ selected,
        scope.selectFrom axis qualification test predicates id = .ok selected ∧ x ∈ selected := by
  constructor
  · intro hx
    exact (mem_step_of_lt h (lt_size_of_mem_step h hids he x hx) he).mp hx
  · rintro ⟨qualification, hqualification, id, hid, selected, hselected, hx⟩
    have hlt := lt_size_of_selectFrom h (hids id hid) hselected hx
    exact (mem_step_of_lt h hlt he).mpr
      ⟨qualification, hqualification, id, hid, selected, hselected, hx⟩

end Step

/-! ## Steps from a union -/

theorem lt_size_of_mem_append (ha : ∀ id ∈ a, id.index < scope.document.size)
    (hb : ∀ id ∈ b, id.index < scope.document.size) :
    ∀ id ∈ a ++ b, id.index < scope.document.size :=
  fun id hid => (List.mem_append.mp hid).elim (ha id) (hb id)

section Union

variable (h : scope.document.WellFormed) (ha : ∀ id ∈ a, id.index < scope.document.size)
  (hb : ∀ id ∈ b, id.index < scope.document.size)
include h ha hb

theorem mem_inOrder_append : x ∈ scope.document.inOrder (a ++ b) ↔ x ∈ a ∨ x ∈ b := by
  rw [h.mem_inOrder, List.mem_append]
  exact and_iff_left_of_imp fun hx => hx.elim (ha x) (hb x)

theorem exists_step_union {step : Step} :
    (∃ found, step.evaluate scope (scope.document.inOrder (a ++ b)) = .ok found) ↔
      (∃ found, step.evaluate scope a = .ok found) ∧
        ∃ found, step.evaluate scope b = .ok found := by
  cases step with
  | mk axis test predicates =>
  simp only [exists_step_iff, mem_inOrder_append h ha hb]
  constructor
  · rintro ⟨haxis, qualification, hqualification, hall⟩
    exact ⟨⟨haxis, qualification, hqualification, fun id hid => hall id (Or.inl hid)⟩,
      haxis, qualification, hqualification, fun id hid => hall id (Or.inr hid)⟩
  · rintro ⟨⟨haxis, qualification, hqualification, hfirst⟩, -, other, hother, hsecond⟩
    obtain rfl := Except.ok.inj (hqualification.symm.trans hother)
    exact ⟨haxis, qualification, hqualification, fun id hid => hid.elim (hfirst id) (hsecond id)⟩

/-- A step from a union selects what it selects from the two lists. -/
theorem step_union {step : Step} :
    step.evaluate scope (scope.document.inOrder (a ++ b)) = .ok found ↔
      ∃ first second, step.evaluate scope a = .ok first ∧ step.evaluate scope b = .ok second ∧
        found = scope.document.inOrder (first ++ second) := by
  have hunion : ∀ id ∈ scope.document.inOrder (a ++ b), id.index < scope.document.size :=
    fun id hid => (h.mem_inOrder.mp hid).2
  -- Two lists in order with the same members are equal.
  have heq : ∀ {found first second},
      step.evaluate scope (scope.document.inOrder (a ++ b)) = .ok found →
      step.evaluate scope a = .ok first → step.evaluate scope b = .ok second →
      found = scope.document.inOrder (first ++ second) := by
    intro found first second he hfirst hsecond
    have hlt := lt_size_of_mem_append (lt_size_of_mem_step h ha hfirst)
      (lt_size_of_mem_step h hb hsecond)
    refine ((h.inOrder_eq_iff hlt).mpr ⟨pairwise_step h he, fun x => ?_⟩).symm
    cases step with
    | mk axis test predicates =>
    rw [mem_step h hunion he, List.mem_append, mem_step h ha hfirst, mem_step h hb hsecond,
      ← exists_or]
    refine exists_congr fun qualification => ?_
    rw [← and_or_left, ← exists_or]
    refine and_congr_right fun _ => exists_congr fun id => ?_
    rw [mem_inOrder_append h ha hb, or_and_right]
  constructor
  · intro he
    obtain ⟨⟨first, hfirst⟩, second, hsecond⟩ := (exists_step_union h ha hb).mp ⟨found, he⟩
    exact ⟨first, second, hfirst, hsecond, heq he hfirst hsecond⟩
  · rintro ⟨first, second, hfirst, hsecond, rfl⟩
    obtain ⟨found, he⟩ := (exists_step_union h ha hb).mpr ⟨⟨first, hfirst⟩, second, hsecond⟩
    rw [he, heq he hfirst hsecond]

/-- So do any number of steps. -/
theorem walk_union {steps : List Step} :
    walk scope steps (scope.document.inOrder (a ++ b)) = .ok found ↔
      ∃ first second, walk scope steps a = .ok first ∧ walk scope steps b = .ok second ∧
        found = scope.document.inOrder (first ++ second) := by
  induction steps generalizing a b with
  | nil =>
    simp only [walk]
    constructor
    · rintro ⟨⟩
      exact ⟨a, b, rfl, rfl, rfl⟩
    · rintro ⟨_, _, ⟨⟩, ⟨⟩, rfl⟩
      rfl
  | cons step rest ih =>
    simp only [walk]
    constructor
    · intro he
      obtain ⟨next, hnext, he⟩ := bind_eq_ok he
      obtain ⟨first, second, hfirst, hsecond, rfl⟩ := (step_union h ha hb).mp hnext
      obtain ⟨last, last', hlast, hlast', rfl⟩ :=
        (ih (lt_size_of_mem_step h ha hfirst) (lt_size_of_mem_step h hb hsecond)).mp he
      refine ⟨last, last', ?_, ?_, rfl⟩
      · rw [hfirst]
        exact hlast
      · rw [hsecond]
        exact hlast'
    · rintro ⟨last, last', hlast, hlast', rfl⟩
      obtain ⟨first, hfirst, hlast⟩ := bind_eq_ok hlast
      obtain ⟨second, hsecond, hlast'⟩ := bind_eq_ok hlast'
      rw [(step_union h ha hb).mpr ⟨first, second, hfirst, hsecond, rfl⟩]
      exact (ih (lt_size_of_mem_step h ha hfirst) (lt_size_of_mem_step h hb hsecond)).mpr
        ⟨last, last', hlast, hlast', rfl⟩

end Union

/-! ## Expressions -/

theorem union_eq_ok_iff {d : Document} {left right value : Value} :
    BinaryOp.union.apply d left right = .ok value ↔
      ∃ a b, left = .nodes a ∧ right = .nodes b ∧ value = .nodes (d.inOrder (a ++ b)) := by
  constructor
  · intro he
    obtain ⟨a, ha, he⟩ := bind_eq_ok he
    obtain ⟨b, hb, he⟩ := bind_eq_ok he
    obtain rfl := Except.ok.inj he
    cases left <;> cases ha
    cases right <;> cases hb
    exact ⟨_, _, rfl, rfl, rfl⟩
  · rintro ⟨a, b, rfl, rfl, rfl⟩
    rfl

theorem evaluate_union_eq_ok_iff {left right : Expr} {value : Value} :
    (Expr.binary .union left right).evaluate scope focus = .ok value ↔
      ∃ a b, left.evaluate scope focus = .ok (.nodes a) ∧
        right.evaluate scope focus = .ok (.nodes b) ∧
        value = .nodes (scope.document.inOrder (a ++ b)) := by
  rw [Expr.evaluate]
  constructor
  · intro he
    obtain ⟨first, hfirst, he⟩ := bind_eq_ok he
    obtain ⟨second, hsecond, he⟩ := bind_eq_ok he
    obtain ⟨a, b, rfl, rfl, rfl⟩ := union_eq_ok_iff.mp he
    exact ⟨a, b, hfirst, hsecond, rfl⟩
  · rintro ⟨a, b, hfirst, hsecond, rfl⟩
    rw [hfirst, hsecond]
    rfl

/-- A path from the nodes of an expression takes them in document order. -/
theorem evaluate_path_eq_ok_iff {primary : Expr} {steps : List Step} {value : Value} :
    (Expr.path (.nodes primary) steps).evaluate scope focus = .ok value ↔
      ∃ ids found, primary.evaluate scope focus = .ok (.nodes ids) ∧
        walk scope steps (scope.document.inOrder ids) = .ok found ∧ value = .nodes found := by
  rw [Expr.evaluate, Start.evaluate]
  constructor
  · intro he
    obtain ⟨start, hstart, he⟩ := bind_eq_ok he
    obtain ⟨found, hfound, he⟩ := bind_eq_ok he
    obtain rfl := Except.ok.inj he
    obtain ⟨first, hfirst, hstart⟩ := bind_eq_ok hstart
    obtain ⟨ids, hids, hstart⟩ := bind_eq_ok hstart
    obtain rfl := Except.ok.inj hstart
    cases first <;> cases hids
    exact ⟨_, found, hfirst, hfound, rfl⟩
  · rintro ⟨ids, found, hfirst, hfound, rfl⟩
    rw [hfirst]
    show (do return Value.nodes (← walk scope steps (scope.document.inOrder ids))) = _
    rw [hfound]
    rfl

/-- Uniting lists and putting them in order are independent of each other. -/
theorem Document.WellFormed.inOrder_append {d : Document} (h : d.WellFormed) (a b : List NodeId) :
    d.inOrder (a ++ b) = d.inOrder (d.inOrder a ++ d.inOrder b) := by
  refine Eq.symm ((h.inOrder_eq_iff fun x hx => ?_).mpr ⟨h.pairwise_inOrder, fun x => ?_⟩)
  · rcases List.mem_append.mp hx with hx | hx <;> exact (h.mem_inOrder.mp hx).2
  · rw [h.mem_inOrder, List.mem_append, List.mem_append, h.mem_inOrder, h.mem_inOrder, or_and_right]

theorem Document.WellFormed.inOrder_inOrder {d : Document} (h : d.WellFormed) (a : List NodeId) :
    d.inOrder (d.inOrder a) = d.inOrder a :=
  (h.inOrder_eq_iff fun _ hx => (h.mem_inOrder.mp hx).2).mpr ⟨h.pairwise_inOrder, fun _ => Iff.rfl⟩

/-- Steps from the nodes of a union have the same result as the union of the steps from either side,
wherever one of the two has a result. The union of lists of nodes depends neither on their order nor
on repetitions, and is commutative, associative and, up to the order of the nodes, idempotent. -/
theorem steps_distribute_over_union (h : scope.document.Reachable) :
    (∀ (focus : Focus) (left right : Expr) (steps : List Step) (value : Value),
      (Expr.path (.nodes (.binary .union left right)) steps).evaluate scope focus = .ok value ↔
        (Expr.binary .union (.path (.nodes left) steps) (.path (.nodes right) steps)).evaluate
          scope focus = .ok value) ∧
    (∀ a b a' b' : List NodeId, SameMembers a a' → SameMembers b b' →
      BinaryOp.union.apply scope.document (.nodes a) (.nodes b) =
        BinaryOp.union.apply scope.document (.nodes b') (.nodes a')) ∧
    (∀ a b c : List NodeId,
      (do let first ← BinaryOp.union.apply scope.document (.nodes a) (.nodes b)
          BinaryOp.union.apply scope.document first (.nodes c)) =
        (do let second ← BinaryOp.union.apply scope.document (.nodes b) (.nodes c)
            BinaryOp.union.apply scope.document (.nodes a) second)) ∧
    ∀ a : List NodeId, BinaryOp.union.apply scope.document (.nodes a) (.nodes a) =
      .ok (.nodes (scope.document.inOrder a)) := by
  have hwf := h.wellFormed
  have hlt : ∀ {ids}, ∀ id ∈ scope.document.inOrder ids, id.index < scope.document.size :=
    fun id hid => (hwf.mem_inOrder.mp hid).2
  have happly : ∀ a b : List NodeId, BinaryOp.union.apply scope.document (.nodes a) (.nodes b) =
      .ok (.nodes (scope.document.inOrder (a ++ b))) := fun _ _ => rfl
  refine ⟨fun focus left right steps value => ?_, fun a b a' b' ha hb => ?_, fun a b c => ?_,
    fun a => ?_⟩
  · simp only [evaluate_path_eq_ok_iff, evaluate_union_eq_ok_iff]
    constructor
    · rintro ⟨_, found, ⟨a, b, hleft, hright, ⟨⟩⟩, hwalk, rfl⟩
      rw [hwf.inOrder_inOrder, hwf.inOrder_append] at hwalk
      obtain ⟨first, second, hfirst, hsecond, rfl⟩ := (walk_union hwf hlt hlt).mp hwalk
      exact ⟨first, second, ⟨a, first, hleft, hfirst, rfl⟩, ⟨b, second, hright, hsecond, rfl⟩, rfl⟩
    · rintro ⟨_, _, ⟨a, first, hleft, hfirst, ⟨⟩⟩, ⟨b, second, hright, hsecond, ⟨⟩⟩, rfl⟩
      refine ⟨_, _, ⟨a, b, hleft, hright, rfl⟩, ?_, rfl⟩
      rw [hwf.inOrder_inOrder, hwf.inOrder_append]
      exact (walk_union hwf hlt hlt).mpr ⟨_, _, hfirst, hsecond, rfl⟩
  · have hmembers : SameMembers (a ++ b) (b' ++ a') := fun x => by
      rw [List.mem_append, List.mem_append, ha x, hb x, or_comm]
    rw [happly, happly, hmembers.inOrder_eq]
  · have hleft : scope.document.inOrder (scope.document.inOrder (a ++ b) ++ c) =
        scope.document.inOrder (a ++ b ++ c) := by
      rw [hwf.inOrder_append, hwf.inOrder_inOrder, ← hwf.inOrder_append]
    have hright : scope.document.inOrder (a ++ scope.document.inOrder (b ++ c)) =
        scope.document.inOrder (a ++ (b ++ c)) := by
      rw [hwf.inOrder_append, hwf.inOrder_inOrder, ← hwf.inOrder_append]
    show BinaryOp.union.apply scope.document (.nodes (scope.document.inOrder (a ++ b))) (.nodes c) =
      BinaryOp.union.apply scope.document (.nodes a) (.nodes (scope.document.inOrder (b ++ c)))
    rw [happly, happly, hleft, hright, List.append_assoc]
  · have hmembers : SameMembers (a ++ a) a := fun x => by rw [List.mem_append, or_self]
    rw [happly, hmembers.inOrder_eq]

/-- A variable with a repetition on one side, the node of the focus on the other, and steps with a
position counted backward and forward. -/
theorem steps_distribute_over_union_of_positions :
    let d := Edit.afterAll .empty [.createElement "a" none, .createText "t", .createText "u",
      .appendChild root ⟨1⟩, .appendChild ⟨1⟩ ⟨3⟩, .insertBefore ⟨1⟩ ⟨2⟩ (some ⟨3⟩)]
    let scope := Scope.startingAt d ⟨3⟩ .core (fun _ => some (.nodes [⟨2⟩, ⟨1⟩, ⟨2⟩])) none
    let left : Expr := .reference "v"
    let right : Expr := .path .context [.toAny .self]
    let steps : List Step := [.mk .ancestorOrSelf .node [.call "last" []],
      .mk .descendant .text [.call "position" []]]
    scope.document.Reachable ∧
      (Expr.path (.nodes (.binary .union left right)) steps).evaluate scope (.on ⟨3⟩) =
        .ok (.nodes [⟨2⟩, ⟨3⟩]) := by
  intro d scope left right steps
  have h : scope.document.Reachable := Document.Reachable.empty.afterAll _
  have hseparate : (Expr.binary .union (.path (.nodes left) steps)
      (.path (.nodes right) steps)).evaluate scope (.on ⟨3⟩) = .ok (.nodes [⟨2⟩, ⟨3⟩]) := by
    decide +kernel
  exact ⟨h, ((steps_distribute_over_union h).1 _ left right steps _).mpr hseparate⟩

end XPath
