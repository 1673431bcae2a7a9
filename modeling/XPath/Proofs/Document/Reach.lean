import XPath.Proofs.Document.Axis
/-! What an axis leads to, said without a walk: by parents, ancestors and document order. The list of
each axis holds these nodes, in document order on forward axes and in reverse order on the others. -/
namespace XPath
set_option autoImplicit false

open Document

variable {d : Document} {axis : Axis} {n x : NodeId} {l : List NodeId} {P : NodeId → Prop}

namespace Axis

/-- The axis leads from the node `n` to `x`. -/
def Reaches (d : Document) (axis : Axis) (n x : NodeId) : Prop :=
  match axis with
  | child => d.IsParent n x ∧ d.isAttribute x = false
  | descendant => d.IsAncestor n x ∧ d.isAttribute x = false
  | descendantOrSelf => x = n ∨ d.IsAncestor n x ∧ d.isAttribute x = false
  | .attribute => d.IsParent n x ∧ d.isAttribute x = true
  | namespaceNode => False
  | parent => d.IsParent x n
  | ancestor => d.IsAncestor x n
  | ancestorOrSelf => x = n ∨ d.IsAncestor x n
  | self => x = n
  | followingSibling => d.isAttribute n = false ∧ d.isAttribute x = false ∧
      (∃ p, d.IsParent p n ∧ d.IsParent p x) ∧ d.Before n x
  | precedingSibling => d.isAttribute n = false ∧ d.isAttribute x = false ∧
      (∃ p, d.IsParent p n ∧ d.IsParent p x) ∧ d.Before x n
  | following => d.top x = d.top n ∧ d.isAttribute x = false ∧ d.Before n x ∧ ¬ d.IsAncestor n x
  | preceding => d.top x = d.top n ∧ d.isAttribute x = false ∧ d.Before x n ∧ ¬ d.IsAncestor x n

/-- The list holds the nodes with a property, in the order in which positions count along the axis:
in document order, or on a reverse axis in reverse document order. -/
structure ListsAlong (axis : Axis) (d : Document) (l : List NodeId) (P : NodeId → Prop) : Prop where
  pairwise : l.Pairwise fun x y => if axis.isReverse then d.Before y x else d.Before x y
  mem_iff : ∀ x, x ∈ l ↔ P x

namespace ListsAlong

theorem filter (h : axis.ListsAlong d l P) (test : NodeId → Bool) :
    axis.ListsAlong d (l.filter test) fun x => P x ∧ test x = true :=
  ⟨h.pairwise.filter _, fun x => by rw [List.mem_filter, h.mem_iff]⟩

theorem nodup (h : axis.ListsAlong d l P) : l.Nodup := by
  refine h.pairwise.imp fun {x y} hxy hne => ?_
  subst hne
  split at hxy <;> exact Nat.lt_irrefl _ hxy

end ListsAlong
end Axis

namespace Document.WellFormed

/-! ## The nodes of an axis -/

theorem mem_followingSiblings_iff (h : d.WellFormed) :
    x ∈ d.followingSiblings n ↔ Axis.followingSibling.Reaches d n x := by
  rw [h.listsForward_followingSiblings.mem_iff]
  simp only [Axis.Reaches, h.mem_children_iff, IsParent]
  grind

theorem mem_precedingSiblings_iff (h : d.WellFormed) :
    x ∈ d.precedingSiblings n ↔ Axis.precedingSibling.Reaches d n x := by
  rw [h.listsBackward_precedingSiblings.mem_iff]
  simp only [Axis.Reaches, h.mem_children_iff, IsParent]
  grind

theorem mem_axis_iff (h : d.WellFormed) : x ∈ axis.nodes d n ↔ axis.Reaches d n x := by
  cases axis with
  | child => exact h.mem_children_iff
  | descendantOrSelf => exact List.mem_cons.trans (or_congr_right h.mem_descendants)
  | descendant => exact h.mem_descendants
  | «attribute» => exact h.mem_attributes_iff
  | namespaceNode => exact List.mem_nil_iff x
  | parent => exact Option.mem_toList
  | ancestorOrSelf => exact List.mem_cons.trans (or_congr_right h.mem_ancestors)
  | ancestor => exact h.mem_ancestors
  | self => exact List.mem_singleton
  | followingSibling => exact h.mem_followingSiblings_iff
  | precedingSibling => exact h.mem_precedingSiblings_iff
  | following => exact h.listsForward_following.mem_iff x
  | preceding => exact h.listsBackward_preceding.mem_iff x

/-- A reverse axis is in reverse document order, whatever the node it starts from. -/
theorem pairwise_reverse_axis (h : d.WellFormed) (hreverse : axis.isReverse = true) :
    (axis.nodes d n).Pairwise fun x y => d.Before y x := by
  cases axis with
  | ancestor => exact h.listsBackward_ancestors.pairwise
  | ancestorOrSelf =>
    refine List.pairwise_cons.mpr ⟨fun x hx => ?_, h.listsBackward_ancestors.pairwise⟩
    exact h.before_of_isAncestor (h.mem_ancestors.mp hx)
  | preceding => exact h.listsBackward_preceding.pairwise
  | precedingSibling => exact h.listsBackward_precedingSiblings.pairwise
  | _ => cases hreverse

theorem listsAlong_axis (h : d.WellFormed) (axis : Axis) (n : NodeId) :
    axis.ListsAlong d (axis.nodes d n) (axis.Reaches d n) := by
  refine ⟨?_, fun x => h.mem_axis_iff⟩
  cases hreverse : axis.isReverse with
  | true => simpa only [if_true] using h.pairwise_reverse_axis hreverse
  | false => simpa only [Bool.false_eq_true, if_false] using h.pairwise_axis hreverse

end Document.WellFormed
end XPath
