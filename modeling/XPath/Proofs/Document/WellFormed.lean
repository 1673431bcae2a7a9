import Mathlib.Data.List.Perm.Basic
import Mathlib.Order.WellFounded
import XPath.Proofs.Document.Links
/-! Well-formed documents: links agree in both directions, connect nodes of fitting kinds and never
form a cycle. The relations between nodes come first, then the invariant and what it says of them. -/
namespace XPath.Document
set_option autoImplicit false

/-! ## Relations between nodes -/

def IsParent (d : Document) (parent child : NodeId) : Prop := d.parent? child = some parent

/-- `above` is on the chain of parents of `below`. -/
def IsAncestor (d : Document) : NodeId → NodeId → Prop := Relation.TransGen d.IsParent

/-- `below` belongs to the tree that hangs from `above`, which it may be itself. -/
def Under (d : Document) : NodeId → NodeId → Prop := Relation.ReflTransGen d.IsParent

/-- Whether a node may have children. -/
def isContainer (d : Document) (id : NodeId) : Bool := (d.kind? id).any NodeKind.isContainer

/-- Whether a node may become a child. -/
def isInsertable (d : Document) (id : NodeId) : Bool :=
  (d.kind? id).any fun kind => kind != .document && !kind.isAttribute

/-! ## The invariant -/

structure WellFormed (d : Document) : Prop where
  /-- The nodes that name a node as their parent are its children and attributes. -/
  linked : ∀ parent child,
    child ∈ d.children parent ∨ child ∈ d.attributes parent ↔ d.IsParent parent child
  nodup_children : ∀ parent, (d.children parent).Nodup
  nodup_attributes : ∀ element, (d.attributes element).Nodup
  of_mem_children : ∀ parent id, id ∈ d.children parent → d.isContainer parent ∧ d.isInsertable id
  of_mem_attributes : ∀ element id, id ∈ d.attributes element →
    d.isElement element ∧ d.isAttribute id
  kind?_root : ∀ id, d.kind? id = some .document ↔ id = root
  /-- Going from parent to parent ends. -/
  grounded : WellFounded d.IsParent

variable {d : Document} {a b c p x y id : NodeId}

/-! ## Kinds -/

theorem isContainer_iff : d.isContainer id ↔ d.kind? id = some .document ∨ d.isElement id := by
  unfold isContainer isElement
  cases d.kind? id with
  | none => simp
  | some kind => cases kind <;> simp [NodeKind.isContainer, NodeKind.isElement]

theorem isAttribute_iff : d.isAttribute id ↔
    ∃ name uri value, d.kind? id = some (.attribute name uri value) := by
  unfold isAttribute
  cases d.kind? id with
  | none => simp
  | some kind => cases kind <;> simp [NodeKind.isAttribute]

theorem isInsertable_iff (h : id.index < d.size) :
    d.isInsertable id ↔ d.kind? id ≠ some .document ∧ d.isAttribute id = false := by
  unfold isInsertable isAttribute kind?
  cases hid : d.node? id with
  | none => rw [← node?_isSome_iff, hid] at h; cases h
  | some node => cases node.kind <;> simp [NodeKind.isAttribute]

theorem isAttribute_eq_false_of_isInsertable (h : d.isInsertable id) :
    d.isAttribute id = false := by
  unfold isInsertable at h
  unfold isAttribute
  cases hk : d.kind? id with
  | none => rfl
  | some kind => cases kind <;> simp_all [NodeKind.isAttribute]

theorem isAttribute_eq_false_of_isContainer (h : d.isContainer id) : d.isAttribute id = false := by
  unfold isContainer at h
  unfold isAttribute
  cases hk : d.kind? id with
  | none => rfl
  | some kind => cases kind <;> simp_all [NodeKind.isContainer, NodeKind.isAttribute]

theorem isContainer_of_isElement (h : d.isElement id) : d.isContainer id :=
  isContainer_iff.mpr (Or.inr h)

/-! ## Under and above -/

theorem IsParent.lt_size (h : d.IsParent p c) : c.index < d.size := lt_size_of_parent? h

theorem IsParent.unique (h : d.IsParent a c) (h' : d.IsParent b c) : a = b :=
  Option.some.inj (h.symm.trans h')

theorem under_iff : d.Under a x ↔ x = a ∨ d.IsAncestor a x :=
  Relation.reflTransGen_iff_eq_or_transGen

theorem IsAncestor.under (h : d.IsAncestor a x) : d.Under a x := h.to_reflTransGen

/-- What is above a node is its parent or above that. -/
theorem isAncestor_iff_of_isParent (h : d.IsParent p x) : d.IsAncestor a x ↔ d.Under a p := by
  constructor
  · intro hax
    obtain ⟨q, haq, hqx⟩ := Relation.TransGen.tail'_iff.mp hax
    rwa [h.unique hqx]
  · intro hap
    exact Relation.TransGen.tail' hap h

theorem not_isAncestor_of_parent?_eq_none (h : d.parent? x = none) : ¬ d.IsAncestor a x := by
  intro hax
  obtain ⟨q, -, hqx⟩ := Relation.TransGen.tail'_iff.mp hax
  exact absurd (h.symm.trans hqx) (by simp)

/-- The nodes above a node form a chain. -/
theorem Under.total (ha : d.Under a x) (hb : d.Under b x) : d.Under a b ∨ d.Under b a := by
  induction ha with
  | refl => exact Or.inr hb
  | tail hay hyz ih =>
    rcases under_iff.mp hb with rfl | hbz
    · exact Or.inl (hay.tail hyz)
    · exact ih ((isAncestor_iff_of_isParent hyz).mp hbz)

theorem Under.lt_size (h : d.Under a x) (ha : a.index < d.size) : x.index < d.size := by
  rcases Relation.ReflTransGen.cases_tail h with rfl | ⟨q, -, hqx⟩
  · exact ha
  · exact hqx.lt_size

namespace WellFormed

theorem isParent_of_mem_children (h : d.WellFormed) (hc : c ∈ d.children p) : d.IsParent p c :=
  (h.linked p c).mp (Or.inl hc)

theorem isParent_of_mem_attributes (h : d.WellFormed) (hc : c ∈ d.attributes p) : d.IsParent p c :=
  (h.linked p c).mp (Or.inr hc)

theorem size_pos (h : d.WellFormed) : 0 < d.size := lt_size_of_kind? ((h.kind?_root root).mpr rfl)

theorem parent_lt_size (h : d.WellFormed) (hp : d.IsParent p c) : p.index < d.size := by
  rcases (h.linked p c).mpr hp with hc | hc
  · exact lt_size_of_mem_children hc
  · exact lt_size_of_mem_attributes hc

theorem ancestor_lt_size (h : d.WellFormed) (ha : d.IsAncestor a x) : a.index < d.size := by
  obtain ⟨q, haq, -⟩ := Relation.TransGen.head'_iff.mp ha
  exact h.parent_lt_size haq

theorem under_lt_size (h : d.WellFormed) (ha : d.Under a x) (hx : x.index < d.size) :
    a.index < d.size := by
  rcases under_iff.mp ha with rfl | ha
  · exact hx
  · exact h.ancestor_lt_size ha

theorem isAttribute_of_mem_attributes (h : d.WellFormed) (ha : a ∈ d.attributes p) :
    d.isAttribute a := (h.of_mem_attributes p a ha).2

theorem isAttribute_eq_false_of_mem_children (h : d.WellFormed) (hc : c ∈ d.children p) :
    d.isAttribute c = false := isAttribute_eq_false_of_isInsertable (h.of_mem_children p c hc).2

/-- Nothing hangs from an attribute. -/
theorem isAttribute_eq_false_of_isParent (h : d.WellFormed) (hp : d.IsParent p c) :
    d.isAttribute p = false := by
  rcases (h.linked p c).mpr hp with hc | hc
  · exact isAttribute_eq_false_of_isContainer (h.of_mem_children p c hc).1
  · have helement := (h.of_mem_attributes p c hc).1
    exact isAttribute_eq_false_of_isContainer (isContainer_of_isElement helement)

theorem mem_children_iff (h : d.WellFormed) :
    c ∈ d.children p ↔ d.IsParent p c ∧ d.isAttribute c = false := by
  constructor
  · intro hc
    exact ⟨h.isParent_of_mem_children hc, h.isAttribute_eq_false_of_mem_children hc⟩
  · rintro ⟨hp, ha⟩
    rcases (h.linked p c).mpr hp with hc | hc
    · exact hc
    · exact absurd (h.isAttribute_of_mem_attributes hc) (by simp [ha])

theorem mem_attributes_iff (h : d.WellFormed) :
    c ∈ d.attributes p ↔ d.IsParent p c ∧ d.isAttribute c = true := by
  constructor
  · intro hc
    exact ⟨h.isParent_of_mem_attributes hc, h.isAttribute_of_mem_attributes hc⟩
  · rintro ⟨hp, ha⟩
    rcases (h.linked p c).mpr hp with hc | hc
    · exact absurd (h.isAttribute_eq_false_of_mem_children hc) (by simp [ha])
    · exact hc

theorem parent?_root (h : d.WellFormed) : d.parent? root = none := by
  cases hp : d.parent? root with
  | none => rfl
  | some p =>
    have hdoc : d.kind? root = some .document := (h.kind?_root root).mpr rfl
    rcases (h.linked p root).mpr hp with hc | hc
    · exact absurd (h.of_mem_children p root hc).2 (by simp [isInsertable, hdoc])
    · exact absurd (h.of_mem_attributes p root hc).2
        (by simp [isAttribute, hdoc, NodeKind.isAttribute])

theorem children_eq_nil_of_isAttribute (h : d.WellFormed) (ha : d.isAttribute a) :
    d.children a = [] := by
  refine List.eq_nil_iff_forall_not_mem.mpr fun c hc => ?_
  simp [h.isAttribute_eq_false_of_isParent (h.isParent_of_mem_children hc)] at ha

theorem attributes_eq_nil_of_isAttribute (h : d.WellFormed) (ha : d.isAttribute a) :
    d.attributes a = [] := by
  refine List.eq_nil_iff_forall_not_mem.mpr fun c hc => ?_
  simp [h.isAttribute_eq_false_of_isParent (h.isParent_of_mem_attributes hc)] at ha

/-! ## Acyclicity -/

theorem isAncestor_wellFounded (h : d.WellFormed) : WellFounded d.IsAncestor := h.grounded.transGen

theorem not_isAncestor_self (h : d.WellFormed) : ¬ d.IsAncestor x x :=
  fun hx => h.isAncestor_wellFounded.asymmetric x x hx hx

/-- Trees that hang from two nodes with one parent are apart. -/
theorem eq_of_under_of_isParent (h : d.WellFormed) (ha : d.IsParent p a) (hb : d.IsParent p b)
    (hax : d.Under a x) (hbx : d.Under b x) : a = b := by
  -- Were one above the other, its parent would be above itself.
  have key : ∀ {a b : NodeId}, d.IsParent p a → d.IsParent p b → d.Under a b → a = b := by
    intro a b ha hb hab
    rcases under_iff.mp hab with rfl | hab
    · rfl
    · exact absurd (Relation.TransGen.head' ha ((isAncestor_iff_of_isParent hb).mp hab))
        h.not_isAncestor_self
  rcases hax.total hbx with hab | hba
  · exact key ha hb hab
  · exact (key hb ha hba).symm

end WellFormed
end XPath.Document
