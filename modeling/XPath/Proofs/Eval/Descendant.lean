import XPath.Proofs.Eval.Predicate
import XPath.Proofs.Eval.Union
/-! The meaning of `//`. A step to the children of a node and of everything below it reaches what a
step along the descendant axis reaches, only that the first one takes the nodes parent by parent. So
the two select alike wherever predicates keep a node for what it is; a predicate that counts
positions tells them apart. -/
namespace XPath
set_option autoImplicit false

open Document

variable {scope : Scope} {ids found all : List NodeId} {x : NodeId} {axis : Axis} {test : NodeTest}
  {predicates : List Expr}

/-! ## What two steps reach -/

/-- Below a node are the children of the node itself and of the nodes below it. -/
theorem Document.WellFormed.mem_descendants_iff_exists_child {d : Document} (h : d.WellFormed)
    {a x : NodeId} : x ∈ d.descendants a ↔ ∃ y ∈ a :: d.descendants a, x ∈ d.children y := by
  rw [h.mem_descendants]
  constructor
  · rintro ⟨hax, hx⟩
    obtain ⟨y, hay, hyx⟩ := Relation.TransGen.tail'_iff.mp hax
    refine ⟨y, ?_, h.mem_children_iff.mpr ⟨hyx, hx⟩⟩
    rcases under_iff.mp hay with rfl | hay
    · exact List.mem_cons_self
    · have hy := h.mem_descendants.mpr ⟨hay, h.isAttribute_eq_false_of_isParent hyx⟩
      exact List.mem_cons_of_mem a hy
  · rintro ⟨y, hy, hyx⟩
    obtain ⟨hp, hx⟩ := h.mem_children_iff.mp hyx
    rcases List.mem_cons.mp hy with rfl | hy
    · exact ⟨.single hp, hx⟩
    · exact ⟨(h.mem_descendants.mp hy).1.tail hp, hx⟩

/-! ## Steps whose predicates look at the node only -/

section Step

variable (hlibrary : scope.functions.Reachable)
  (hpredicates : ∀ p ∈ predicates, p.LooksAtNode scope)
include hlibrary hpredicates

/-- Such a step fails if and only if it cannot be taken or a predicate fails at a node reached. -/
theorem exists_step_iff_of_node :
    (∃ found, (Step.mk axis test predicates).evaluate scope ids = .ok found) ↔
      axis ≠ .namespaceNode ∧ ∃ qualification,
        test.qualification scope.resolver = .ok qualification ∧
        ∀ x, (∃ id ∈ ids, x ∈ axis.nodes scope.document id) →
          test.passes scope.document axis qualification x →
          ∃ keep, holdAll scope x predicates = .ok keep := by
  rw [exists_step_iff]
  refine and_congr_right fun _ => exists_congr fun qualification => and_congr_right fun _ => ?_
  simp only [Scope.selectFrom, exists_narrow_iff hlibrary hpredicates, List.mem_filter]
  constructor
  · rintro hall x ⟨id, hid, hx⟩ hpasses
    exact hall id hid x ⟨hx, hpasses⟩
  · rintro hall id hid x ⟨hx, hpasses⟩
    exact hall x ⟨id, hid, hx⟩ hpasses

theorem mem_step_of_node (h : scope.document.WellFormed) (hx : x.index < scope.document.size)
    (he : (Step.mk axis test predicates).evaluate scope ids = .ok found) :
    x ∈ found ↔ ∃ qualification, test.qualification scope.resolver = .ok qualification ∧
      (∃ id ∈ ids, x ∈ axis.nodes scope.document id) ∧
      test.passes scope.document axis qualification x ∧
      holdAll scope x predicates = .ok true := by
  rw [mem_step_of_lt h hx he]
  refine exists_congr fun qualification => and_congr_right fun hqualification => ?_
  constructor
  · rintro ⟨id, hid, selected, hselected, hx⟩
    obtain ⟨hmem, hholds⟩ := (mem_narrow hlibrary hpredicates hselected).mp hx
    obtain ⟨hmem, hpasses⟩ := List.mem_filter.mp hmem
    exact ⟨⟨id, hid, hmem⟩, hpasses, hholds⟩
  · rintro ⟨⟨id, hid, hmem⟩, hpasses, hholds⟩
    -- The step succeeded, so it has a selection from this node.
    obtain ⟨-, other, hother, hall⟩ := exists_step_iff.mp ⟨found, he⟩
    obtain rfl := Except.ok.inj (hqualification.symm.trans hother)
    obtain ⟨selected, hselected⟩ := hall id hid
    have hx := (mem_narrow hlibrary hpredicates hselected).mpr
      ⟨List.mem_filter.mpr ⟨hmem, hpasses⟩, hholds⟩
    exact ⟨id, hid, selected, hselected, hx⟩

end Step

/-! ## The two forms of a step downwards -/

theorem exists_descendantOrSelf :
    ∃ all, (Step.toAny .descendantOrSelf).evaluate scope ids = .ok all := by
  refine exists_step_iff.mpr ⟨by decide, .any, rfl, fun id _ => ?_⟩
  rw [Scope.selectFrom, narrow]
  exact ⟨_, rfl⟩

/-- The children of all nodes from some list downwards are the nodes below those of the list. -/
theorem exists_child_iff_descendant (hlibrary : scope.functions.Reachable)
    (h : scope.document.WellFormed)
    (he : (Step.toAny .descendantOrSelf).evaluate scope ids = .ok all) :
    (∃ y ∈ all, x ∈ scope.document.children y) ↔ ∃ id ∈ ids, x ∈ scope.document.descendants id := by
  have hall : ∀ {y}, x ∈ scope.document.children y →
      (y ∈ all ↔ ∃ id ∈ ids, y ∈ id :: scope.document.descendants id) := by
    intro y hxy
    have hy := lt_size_of_mem_children hxy
    rw [mem_step_of_node hlibrary (fun _ hp => absurd hp List.not_mem_nil) h hy he]
    constructor
    · rintro ⟨-, -, hmem, -, -⟩
      exact hmem
    · exact fun hmem => ⟨.any, rfl, hmem, rfl, rfl⟩
  simp only [h.mem_descendants_iff_exists_child]
  constructor
  · rintro ⟨y, hy, hxy⟩
    obtain ⟨id, hid, hy⟩ := (hall hxy).mp hy
    exact ⟨id, hid, y, hy, hxy⟩
  · rintro ⟨id, hid, y, hy, hxy⟩
    exact ⟨y, (hall hxy).mpr ⟨id, hid, hy⟩, hxy⟩

theorem passes_descendant (d : Document) (qualification : Qualification) :
    test.passes d .descendant qualification = test.passes d .child qualification := by
  cases test <;> rfl

section Steps

variable (hlibrary : scope.functions.Reachable) (h : scope.document.WellFormed)
  (hpredicates : ∀ p ∈ predicates, p.LooksAtNode scope)
  (he : (Step.toAny .descendantOrSelf).evaluate scope ids = .ok all)
include hlibrary h hpredicates he

theorem exists_child_step_iff :
    (∃ found, (Step.mk .child test predicates).evaluate scope all = .ok found) ↔
      ∃ found, (Step.mk .descendant test predicates).evaluate scope ids = .ok found := by
  rw [exists_step_iff_of_node hlibrary hpredicates, exists_step_iff_of_node hlibrary hpredicates]
  simp only [passes_descendant, Axis.nodes, exists_child_iff_descendant hlibrary h he, ne_eq,
    reduceCtorEq, not_false_eq_true]

theorem child_step_eq {found' : List NodeId}
    (hchild : (Step.mk .child test predicates).evaluate scope all = .ok found)
    (hdescendant : (Step.mk .descendant test predicates).evaluate scope ids = .ok found') :
    found = found' := by
  -- Both lists are in document order, so that it is enough to compare their members.
  have hmem : ∀ x, x.index < scope.document.size → (x ∈ found ↔ x ∈ found') := by
    intro x hx
    rw [mem_step_of_node hlibrary hpredicates h hx hchild,
      mem_step_of_node hlibrary hpredicates h hx hdescendant]
    simp only [passes_descendant, Axis.nodes, exists_child_iff_descendant hlibrary h he]
  have hlt : ∀ x ∈ found, x.index < scope.document.size := by
    intro x hx
    obtain ⟨y, -, hxy⟩ := mem_axis_of_mem_step hchild hx
    exact (h.isParent_of_mem_children hxy).lt_size
  have hlt' : ∀ x ∈ found', x.index < scope.document.size := by
    intro x hx
    obtain ⟨y, -, hyx⟩ := mem_axis_of_mem_step hdescendant hx
    obtain ⟨z, -, hzx⟩ := h.mem_descendants_iff_exists_child.mp hyx
    exact (h.isParent_of_mem_children hzx).lt_size
  have hfound := (h.inOrder_eq_iff hlt).mpr ⟨pairwise_step h hchild, fun _ => Iff.rfl⟩
  have hfound' := (h.inOrder_eq_iff hlt).mpr ⟨pairwise_step h hdescendant, fun x =>
    ⟨fun hx => (hmem x (hlt' x hx)).mpr hx, fun hx => (hmem x (hlt x hx)).mp hx⟩⟩
  rw [← hfound, hfound']

theorem child_step_eq_ok_iff :
    (Step.mk .child test predicates).evaluate scope all = .ok found ↔
      (Step.mk .descendant test predicates).evaluate scope ids = .ok found := by
  have hexists : (∃ found, (Step.mk .child test predicates).evaluate scope all = .ok found) ↔
      ∃ found, (Step.mk .descendant test predicates).evaluate scope ids = .ok found :=
    exists_child_step_iff hlibrary h hpredicates he
  constructor
  · intro hchild
    obtain ⟨found', hdescendant⟩ := hexists.mp ⟨found, hchild⟩
    rwa [child_step_eq hlibrary h hpredicates he hchild hdescendant]
  · intro hdescendant
    obtain ⟨found', hchild⟩ := hexists.mpr ⟨found, hdescendant⟩
    rwa [← child_step_eq hlibrary h hpredicates he hchild hdescendant]

end Steps

/-! ## Paths -/

theorem walk_append (before after : List Step) (ids : List NodeId) :
    walk scope (before ++ after) ids = (do walk scope after (← walk scope before ids)) := by
  induction before generalizing ids with
  | nil => rfl
  | cons step rest ih =>
    rw [List.cons_append, walk, walk, bind_assoc]
    exact bind_congr fun next => ih next

/-- In a path, two steps to the children of everything from here downwards may be written as one
step along the descendant axis, and back: the value is the same and one of the two fails only if the
other does, as long as no predicate of the step is a number or reads a position. -/
theorem double_slash_is_descendant (h : scope.document.Reachable)
    (hlibrary : scope.functions.Reachable)
    (hposition : ∀ p ∈ predicates, p.readsPosition = false)
    (hnumber : ∀ p ∈ predicates, p.NeverNumber scope) (focus : Focus) (start : Start)
    (before after : List Step) (test : NodeTest) (value : Value) :
    (Expr.path start
      (before ++ .toAny .descendantOrSelf :: .mk .child test predicates :: after)).evaluate
        scope focus = .ok value ↔
    (Expr.path start (before ++ .mk .descendant test predicates :: after)).evaluate scope focus =
      .ok value := by
  have hpredicates : ∀ p ∈ predicates, p.LooksAtNode scope :=
    fun p hp => ⟨hposition p hp, hnumber p hp⟩
  simp only [Expr.evaluate, walk_append, walk, bind_eq_ok_iff]
  refine exists_congr fun first => and_congr_right fun _ => exists_congr fun found => ?_
  refine and_congr_left fun _ => exists_congr fun reached => and_congr_right fun _ => ?_
  constructor
  · rintro ⟨all, hall, next, hnext, hrest⟩
    exact ⟨next, (child_step_eq_ok_iff hlibrary h.wellFormed hpredicates hall).mp hnext, hrest⟩
  · rintro ⟨next, hnext, hrest⟩
    obtain ⟨all, hall⟩ := @exists_descendantOrSelf scope reached
    exact ⟨all, hall, next,
      (child_step_eq_ok_iff hlibrary h.wellFormed hpredicates hall).mpr hnext, hrest⟩

/-- From an attribute to the elements with an attribute below its owner. -/
theorem double_slash_is_descendant_of_owner :
    let d := Edit.afterAll .empty [.createElement "a" none, .createElement "b" none,
      .createElement "b" none, .appendChild root ⟨1⟩, .appendChild ⟨1⟩ ⟨2⟩, .appendChild ⟨2⟩ ⟨3⟩,
      .setAttribute ⟨1⟩ "k" none "u", .setAttribute ⟨3⟩ "k" none "v"]
    let scope := Scope.startingAt d ⟨4⟩ .core (fun _ => none) none
    let named : Expr := .path .context [.mk .attribute (.name ⟨none, "k"⟩) []]
    let twoSteps : List Step := [.toAny .descendantOrSelf, .mk .child (.name ⟨none, "b"⟩) [named]]
    scope.document.Reachable ∧ scope.functions.Reachable ∧ named.readsPosition = false ∧
      named.NeverNumber scope ∧
      (Expr.path .context (.toAny .parent :: twoSteps)).evaluate scope (.on ⟨4⟩) =
        .ok (.nodes [⟨3⟩]) := by
  intro d scope named twoSteps
  have h : scope.document.Reachable := Document.Reachable.empty.afterAll _
  have hnumber : named.NeverNumber scope :=
    neverNumber_of_kind? .core rfl (by decide : Kind.nodeSet ≠ .number) fun hextended => hextended
  have hdescendant : (Expr.path .context [.toAny .parent,
      .mk .descendant (.name ⟨none, "b"⟩) [named]]).evaluate scope (.on ⟨4⟩) =
        .ok (.nodes [⟨3⟩]) := by
    decide +kernel
  refine ⟨h, .core, rfl, hnumber, ?_⟩
  exact (double_slash_is_descendant h .core (List.forall_mem_singleton.mpr rfl)
    (List.forall_mem_singleton.mpr hnumber) _ .context [.toAny .parent] [] _ _).mpr hdescendant

/-- Positions tell the two apart: every parent has a first child, the document a first descendant. -/
example :
    let d := Edit.afterAll .empty [.createElement "b" none, .createElement "b" none,
      .appendChild root ⟨1⟩, .appendChild ⟨1⟩ ⟨2⟩]
    let scope := Scope.startingAt d root .core (fun _ => none) none
    let first : Expr := .number (.ofNat 1)
    (Expr.path .root [.toAny .descendantOrSelf, .mk .child .anyName [first]]).evaluate scope
        (.on root) = .ok (.nodes [⟨1⟩, ⟨2⟩]) ∧
      (Expr.path .root [.mk .descendant .anyName [first]]).evaluate scope (.on root) =
        .ok (.nodes [⟨1⟩]) := by
  decide +kernel

end XPath
