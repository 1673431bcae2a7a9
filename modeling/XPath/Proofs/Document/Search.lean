import XPath.Document.Search
import XPath.Proofs.Document.Walk
/-! Searches with a stack against the trees on it. With children pushed in their order nodes are met
in document order; arranged otherwise they are met in another order, but still each once. -/
namespace XPath.Document
set_option autoImplicit false

variable {d : Document} {x : NodeId} {steps : Nat} {stack : List NodeId}
  {arrange : List NodeId → List NodeId} {test : NodeId → Bool}

theorem searchFrom_eq_head? :
    d.searchFrom test steps stack = (d.collectFrom (fun l => l) test steps stack).head? := by
  induction steps generalizing stack with
  | zero => rfl
  | succ steps ih =>
    cases stack with
    | nil => rfl
    | cons x stack =>
      rw [searchFrom, collectFrom, ih]
      cases test x <;> rfl

namespace WellFormed

/-- Each step takes one node of the trees that are still to be searched. -/
theorem collectFrom_perm (h : d.WellFormed) (harrange : ∀ l, (arrange l).Perm l)
    (hsteps : (stack.flatMap d.subtree).length ≤ steps) :
    (d.collectFrom arrange test steps stack).Perm ((stack.flatMap d.subtree).filter test) := by
  induction steps generalizing stack with
  | zero =>
    rw [List.eq_nil_of_length_eq_zero (Nat.le_zero.mp hsteps)]
    exact .nil
  | succ steps ih =>
    cases stack with
    | nil => exact .nil
    | cons x stack =>
      have hperm : ((arrange (d.children x) ++ stack).flatMap d.subtree).Perm
          ((d.children x ++ stack).flatMap d.subtree) :=
        ((harrange (d.children x)).append_right stack).flatMap_right d.subtree
      rw [h.flatMap_subtree_cons] at hsteps ⊢
      have hrest := (ih (by rw [hperm.length_eq]; exact Nat.le_of_succ_le_succ hsteps)).trans
        (hperm.filter test)
      rw [collectFrom, List.filter_cons]
      cases test x with
      | true => exact hrest.cons x
      | false => exact hrest

theorem collectFrom_eq (h : d.WellFormed) (hsteps : (stack.flatMap d.subtree).length ≤ steps) :
    d.collectFrom (fun l => l) test steps stack = (stack.flatMap d.subtree).filter test := by
  induction steps generalizing stack with
  | zero =>
    rw [List.eq_nil_of_length_eq_zero (Nat.le_zero.mp hsteps)]
    rfl
  | succ steps ih =>
    cases stack with
    | nil => rfl
    | cons x stack =>
      rw [h.flatMap_subtree_cons] at hsteps ⊢
      rw [collectFrom, ih (Nat.le_of_succ_le_succ hsteps), List.filter_cons]

/-- The walk that starts with the children of a node meets all that is below it, in order. -/
theorem collectBelow_eq (h : d.WellFormed) : d.collectBelow x = d.descendants x := by
  have hlength := h.length_subtree_le (x := x)
  rw [h.subtree_eq, List.length_cons] at hlength
  rw [collectBelow, h.collectFrom_eq (Nat.le_of_succ_le hlength), List.filter_true]
  rfl

theorem collectFrom_singleton_perm (h : d.WellFormed) (harrange : ∀ l, (arrange l).Perm l) :
    (d.collectFrom arrange test d.size [x]).Perm ((d.subtree x).filter test) := by
  have hperm : (d.collectFrom arrange test d.size [x]).Perm (([x].flatMap d.subtree).filter test) :=
    h.collectFrom_perm harrange h.length_flatMap_subtree_singleton_le
  rwa [List.flatMap_singleton] at hperm

theorem searchFrom_singleton (h : d.WellFormed) :
    d.searchFrom test d.size [x] = (d.subtree x).find? test := by
  rw [searchFrom_eq_head?, h.collectFrom_eq h.length_flatMap_subtree_singleton_le,
    List.flatMap_singleton, List.head?_filter]

end WellFormed
end XPath.Document
