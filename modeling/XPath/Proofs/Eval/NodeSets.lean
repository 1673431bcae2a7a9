import XPath.Eval.Basic
import XPath.Proofs.Document.Axis
/-! Node-sets are in document order and free of duplicates. Predicates only take nodes out of a
list; what is selected from a single node along a forward axis is in order because the axis is;
everything else is put in order at the end of its step, filter or union. -/
namespace XPath
set_option autoImplicit false

open Document

variable {scope : Scope} {focus : Focus} {ids found : List NodeId} {id : NodeId}

/-! ## Lists of nodes -/

theorem keepWhere_sublist {test : NodeId → Nat → Except EvalError Bool} {position : Nat}
    (he : keepWhere test position ids = .ok found) : found.Sublist ids := by
  induction ids generalizing position found with
  | nil =>
    obtain rfl := Except.ok.inj he
    exact List.Sublist.refl _
  | cons id rest ih =>
    rw [keepWhere] at he
    obtain ⟨keep, -, he⟩ := bind_eq_ok he
    obtain ⟨kept, hkept, he⟩ := bind_eq_ok he
    obtain rfl := Except.ok.inj he
    cases keep with
    | true => exact (ih hkept).cons_cons id
    | false => exact (ih hkept).cons id

/-- Predicates take nodes out and leave the others in their order. -/
theorem narrow_sublist {predicates : List Expr}
    (he : narrow scope predicates ids = .ok found) : found.Sublist ids := by
  induction predicates generalizing ids with
  | nil =>
    rw [narrow] at he
    obtain rfl := Except.ok.inj he
    exact List.Sublist.refl _
  | cons predicate rest ih =>
    rw [narrow] at he
    obtain ⟨kept, hkept, he⟩ := bind_eq_ok he
    exact (ih he).trans (keepWhere_sublist hkept)

theorem mem_of_gather {select : NodeId → Except EvalError (List NodeId)}
    (he : gather select ids = .ok found) {x : NodeId} (hx : x ∈ found) :
    ∃ id ∈ ids, ∃ selected, select id = .ok selected ∧ x ∈ selected := by
  induction ids generalizing found with
  | nil =>
    obtain rfl := Except.ok.inj he
    exact absurd hx List.not_mem_nil
  | cons id rest ih =>
    rw [gather] at he
    obtain ⟨first, hfirst, he⟩ := bind_eq_ok he
    obtain ⟨others, hothers, he⟩ := bind_eq_ok he
    obtain rfl := Except.ok.inj he
    rcases List.mem_append.mp hx with hx | hx
    · exact ⟨id, List.mem_cons_self, first, hfirst, hx⟩
    · obtain ⟨other, hother, hselected⟩ := ih hothers hx
      exact ⟨other, List.mem_cons_of_mem id hother, hselected⟩

theorem gather_singleton {select : NodeId → Except EvalError (List NodeId)}
    (he : gather select [id] = .ok found) : select id = .ok found := by
  rw [gather] at he
  obtain ⟨first, hfirst, he⟩ := bind_eq_ok he
  obtain rfl := Except.ok.inj he
  rw [hfirst, List.append_nil]

/-! ## Steps -/

section Select

variable {axis : Axis} {test : NodeTest} {narrow : List NodeId → Except EvalError (List NodeId)}

/-- A selection is what is gathered from the nodes, put in order unless it comes from one node along
a forward axis. -/
theorem select_cases (he : scope.select axis test narrow ids = .ok found) :
    ∃ qualification gathered,
      gather (fun id => narrow ((axis.nodes scope.document id).filter
        (test.passes scope.document axis qualification))) ids = .ok gathered ∧
      ((ids.length = 1 ∧ axis.isReverse = false ∧ found = gathered) ∨
        found = scope.document.inOrder gathered) := by
  unfold Scope.select at he
  by_cases haxis : axis = .namespaceNode
  · rw [if_pos haxis] at he
    cases he
  rw [if_neg haxis] at he
  obtain ⟨qualification, -, he⟩ := bind_eq_ok he
  obtain ⟨gathered, hgathered, he⟩ := bind_eq_ok he
  obtain rfl := Except.ok.inj he
  refine ⟨qualification, gathered, hgathered, ?_⟩
  split
  · next hone =>
    rw [Bool.and_eq_true, decide_eq_true_eq, Bool.not_eq_true'] at hone
    exact Or.inl ⟨hone.1, hone.2, rfl⟩
  · exact Or.inr rfl

theorem pairwise_select (h : scope.document.WellFormed)
    (hnarrow : ∀ {l kept}, narrow l = .ok kept → kept.Sublist l)
    (he : scope.select axis test narrow ids = .ok found) :
    found.Pairwise scope.document.Before := by
  obtain ⟨qualification, gathered, hgathered, ⟨hone, hforward, rfl⟩ | rfl⟩ := select_cases he
  · obtain ⟨id, rfl⟩ := List.length_eq_one_iff.mp hone
    have hsublist := hnarrow (gather_singleton hgathered)
    exact (h.pairwise_axis hforward).sublist (hsublist.trans List.filter_sublist)
  · exact h.pairwise_inOrder

/-- Whatever is selected is on the axis from some node. -/
theorem mem_axis_of_mem_select (hnarrow : ∀ {l kept}, narrow l = .ok kept → kept.Sublist l)
    (he : scope.select axis test narrow ids = .ok found) {x : NodeId} (hx : x ∈ found) :
    ∃ id ∈ ids, x ∈ axis.nodes scope.document id := by
  obtain ⟨qualification, gathered, hgathered, hfound⟩ := select_cases he
  have hx' : x ∈ gathered := by
    rcases hfound with ⟨-, -, rfl⟩ | rfl
    · exact hx
    · exact List.contains_iff_mem.mp (List.mem_filter.mp hx).2
  obtain ⟨id, hid, selected, hselected, hx⟩ := mem_of_gather hgathered hx'
  exact ⟨id, hid, ((hnarrow hselected).trans List.filter_sublist).subset hx⟩

theorem lt_size_of_mem_select (h : scope.document.WellFormed)
    (hnarrow : ∀ {l kept}, narrow l = .ok kept → kept.Sublist l)
    (hids : ∀ id ∈ ids, id.index < scope.document.size)
    (he : scope.select axis test narrow ids = .ok found) :
    ∀ id ∈ found, id.index < scope.document.size := by
  intro x hx
  obtain ⟨id, hid, hmem⟩ := mem_axis_of_mem_select hnarrow he hx
  exact h.lt_size_of_mem_axis (hids id hid) hmem

end Select

theorem pairwise_step {step : Step} (h : scope.document.WellFormed)
    (he : step.evaluate scope ids = .ok found) : found.Pairwise scope.document.Before := by
  cases step with
  | mk axis test predicates =>
    rw [Step.evaluate] at he
    exact pairwise_select h narrow_sublist he

theorem mem_axis_of_mem_step {axis : Axis} {test : NodeTest} {predicates : List Expr}
    (he : (Step.mk axis test predicates).evaluate scope ids = .ok found) {x : NodeId}
    (hx : x ∈ found) : ∃ id ∈ ids, x ∈ axis.nodes scope.document id := by
  rw [Step.evaluate] at he
  exact mem_axis_of_mem_select narrow_sublist he hx

theorem lt_size_of_mem_step {step : Step} (h : scope.document.WellFormed)
    (hids : ∀ id ∈ ids, id.index < scope.document.size)
    (he : step.evaluate scope ids = .ok found) : ∀ id ∈ found, id.index < scope.document.size := by
  cases step with
  | mk axis test predicates =>
    rw [Step.evaluate] at he
    exact lt_size_of_mem_select h narrow_sublist hids he

/-! ## Paths -/

theorem pairwise_walk {steps : List Step} (h : scope.document.WellFormed)
    (hids : ids.Pairwise scope.document.Before) (he : walk scope steps ids = .ok found) :
    found.Pairwise scope.document.Before := by
  induction steps generalizing ids with
  | nil =>
    rw [walk] at he
    obtain rfl := Except.ok.inj he
    exact hids
  | cons step rest ih =>
    rw [walk] at he
    obtain ⟨next, hnext, he⟩ := bind_eq_ok he
    exact ih (pairwise_step h hnext) he

theorem pairwise_start {start : Start} (h : scope.document.WellFormed)
    (he : start.evaluate scope focus = .ok found) : found.Pairwise scope.document.Before := by
  cases start with
  | context =>
    rw [Start.evaluate] at he
    obtain rfl := Except.ok.inj he
    exact List.pairwise_singleton _ _
  | root =>
    rw [Start.evaluate] at he
    obtain rfl := Except.ok.inj he
    exact List.pairwise_singleton _ _
  | nodes primary =>
    rw [Start.evaluate] at he
    obtain ⟨value, -, he⟩ := bind_eq_ok he
    obtain ⟨members, -, he⟩ := bind_eq_ok he
    obtain rfl := Except.ok.inj he
    exact h.pairwise_inOrder

theorem lt_size_of_mem_start {start : Start} (h : scope.document.WellFormed)
    (hroot : scope.root.index < scope.document.size)
    (hfocus : focus.node.index < scope.document.size)
    (he : start.evaluate scope focus = .ok found) :
    ∀ id ∈ found, id.index < scope.document.size := by
  cases start with
  | context =>
    rw [Start.evaluate] at he
    obtain rfl := Except.ok.inj he
    exact fun id hid => List.mem_singleton.mp hid ▸ hfocus
  | root =>
    rw [Start.evaluate] at he
    obtain rfl := Except.ok.inj he
    exact fun id hid => List.mem_singleton.mp hid ▸ hroot
  | nodes primary =>
    rw [Start.evaluate] at he
    obtain ⟨value, -, he⟩ := bind_eq_ok he
    obtain ⟨members, -, he⟩ := bind_eq_ok he
    obtain rfl := Except.ok.inj he
    exact fun id hid => (h.mem_inOrder.mp hid).2

/-! ## Expressions -/

/-- Forms of expression whose values are node-sets, whatever the variables are. -/
def Expr.YieldsNodes (library : FunctionLibrary) : Expr → Prop
  | path .. => True
  | filter .. => True
  | binary op _ _ => op = .union
  | call name _ => library.find? name = some (.core .id)
  | _ => False

theorem apply_id_cases {args : List Value} {value : Value}
    (he : CoreFunction.id.apply scope focus args = .ok value) :
    ∃ texts, value = .nodes (scope.document.identified scope.root texts) := by
  unfold CoreFunction.apply at he
  cases args with
  | nil => cases he
  | cons arg rest =>
    cases rest with
    | cons second more => cases arg <;> cases he
    | nil => cases arg <;> exact ⟨_, (Except.ok.inj he).symm⟩

theorem pairwise_identified {d : Document} (h : d.WellFormed) (texts : List String) :
    (d.identified id texts).Pairwise d.Before :=
  h.pairwise_subtree.sublist List.filter_sublist

theorem pairwise_evaluate {e : Expr} {value : Value} (h : scope.document.WellFormed)
    (hform : e.YieldsNodes scope.functions) (he : e.evaluate scope focus = .ok value) :
    ∃ ids, value = .nodes ids ∧ ids.Pairwise scope.document.Before := by
  cases e with
  | path start steps =>
    rw [Expr.evaluate] at he
    obtain ⟨ids, hids, he⟩ := bind_eq_ok he
    obtain ⟨found, hfound, he⟩ := bind_eq_ok he
    obtain rfl := Except.ok.inj he
    exact ⟨found, rfl, pairwise_walk h (pairwise_start h hids) hfound⟩
  | filter primary predicates =>
    rw [Expr.evaluate] at he
    obtain ⟨first, -, he⟩ := bind_eq_ok he
    obtain ⟨members, -, he⟩ := bind_eq_ok he
    obtain ⟨found, hfound, he⟩ := bind_eq_ok he
    obtain rfl := Except.ok.inj he
    exact ⟨found, rfl, h.pairwise_inOrder.sublist (narrow_sublist hfound)⟩
  | binary op left right =>
    obtain rfl : op = .union := hform
    rw [Expr.evaluate] at he
    obtain ⟨first, -, he⟩ := bind_eq_ok he
    obtain ⟨second, -, he⟩ := bind_eq_ok he
    obtain ⟨firstMembers, -, he⟩ := bind_eq_ok he
    obtain ⟨secondMembers, -, he⟩ := bind_eq_ok he
    obtain rfl := Except.ok.inj he
    exact ⟨_, rfl, h.pairwise_inOrder⟩
  | call name args =>
    rw [Expr.evaluate] at he
    obtain ⟨values, -, he⟩ := bind_eq_ok he
    unfold Scope.call at he
    rw [show scope.functions.find? name = some (.core .id) from hform] at he
    obtain ⟨texts, rfl⟩ := apply_id_cases he
    exact ⟨_, rfl, pairwise_identified h texts⟩
  | literal text => cases hform
  | number value => cases hform
  | reference name => cases hform
  | negate operand => cases hform

/-- Paths, filters, unions and calls of the core function `id` yield node-sets in strictly
increasing document order. Every list that a step returns, sorted or not, is the one that sorting
would give, and no step leads out of the document. -/
theorem node_sets_in_order (h : scope.document.Reachable) :
    (∀ (focus : Focus) (e : Expr) (value : Value), e.YieldsNodes scope.functions →
      e.evaluate scope focus = .ok value →
      ∃ ids, value = .nodes ids ∧ ids.Pairwise scope.document.Before) ∧
    (∀ (step : Step) (ids found : List NodeId), (∀ id ∈ ids, id.index < scope.document.size) →
      step.evaluate scope ids = .ok found →
      scope.document.inOrder found = found ∧ ∀ id ∈ found, id.index < scope.document.size) ∧
    (scope.root.index < scope.document.size → ∀ (focus : Focus) (start : Start) (ids : List NodeId),
      focus.node.index < scope.document.size → start.evaluate scope focus = .ok ids →
      ∀ id ∈ ids, id.index < scope.document.size) := by
  have hwf := h.wellFormed
  refine ⟨fun focus e value hform he => pairwise_evaluate hwf hform he,
    fun step ids found hids he => ?_,
    fun hroot focus start ids hfocus he => lt_size_of_mem_start hwf hroot hfocus he⟩
  have hfound := lt_size_of_mem_step hwf hids he
  exact ⟨(hwf.inOrder_eq_iff hfound).mpr ⟨pairwise_step hwf he, fun x => Iff.rfl⟩, hfound⟩

/-- A variable with its nodes turned around and repeated, united with the node of the focus. -/
theorem node_sets_in_order_of_union :
    let d := Edit.afterAll .empty [.createElement "a" none, .createText "t", .createText "u",
      .appendChild root ⟨1⟩, .appendChild ⟨1⟩ ⟨3⟩, .insertBefore ⟨1⟩ ⟨2⟩ (some ⟨3⟩)]
    let scope := Scope.startingAt d ⟨3⟩ .core (fun _ => some (.nodes [⟨3⟩, ⟨2⟩, ⟨3⟩])) none
    let e : Expr := .binary .union (.reference "v") (.path .context [.toAny .parent])
    scope.document.Reachable ∧ e.YieldsNodes scope.functions ∧
      e.evaluate scope (.on ⟨3⟩) = .ok (.nodes [⟨1⟩, ⟨2⟩, ⟨3⟩]) ∧
      [NodeId.mk 1, ⟨2⟩, ⟨3⟩].Pairwise d.Before := by
  intro d scope e
  have h : scope.document.Reachable := Document.Reachable.empty.afterAll _
  have hvalue : e.evaluate scope (.on ⟨3⟩) = .ok (.nodes [⟨1⟩, ⟨2⟩, ⟨3⟩]) := by rfl
  obtain ⟨ids, hids, hpairwise⟩ := (node_sets_in_order h).1 _ e _ rfl hvalue
  obtain rfl := Value.nodes.inj hids
  exact ⟨h, rfl, hvalue, hpairwise⟩

end XPath
