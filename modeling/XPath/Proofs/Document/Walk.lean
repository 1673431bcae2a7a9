import Mathlib.Data.List.Flatten
import XPath.Document.Order
import XPath.Proofs.Document.WellFormed
/-! Walks along the links of a well-formed document. The bounds on their length are never reached,
so that each walk obeys the equation one would write without a bound: upwards from a node to its
parent, downwards from a node to its children. Upwards they visit exactly the nodes above, downwards
exactly the nodes below, each once. -/
namespace XPath.Document
set_option autoImplicit false

variable {d : Document} {a p c t x id : NodeId}

/-! ## The chain of parents -/

theorem isAncestor_of_mem_ancestorsWithin {n : Nat} (ha : a ∈ d.ancestorsWithin n x) :
    d.IsAncestor a x := by
  induction n generalizing x with
  | zero => simp [ancestorsWithin] at ha
  | succ n ih =>
    unfold ancestorsWithin at ha
    split at ha
    · next p hp =>
      rcases List.mem_cons.mp ha with rfl | ha
      · exact Relation.TransGen.single hp
      · exact (ih ha).tail hp
    · simp at ha

/-- A chain that ends before the bound is the same under a greater bound. -/
theorem ancestorsWithin_succ_of_length_lt {n : Nat} (h : (d.ancestorsWithin n x).length < n) :
    d.ancestorsWithin (n + 1) x = d.ancestorsWithin n x := by
  induction n generalizing x with
  | zero => simp at h
  | succ n ih =>
    cases hp : d.parent? x with
    | none => simp [ancestorsWithin, hp]
    | some p =>
      rw [ancestorsWithin] at h
      simp only [hp, List.length_cons] at h
      have hrest : d.ancestorsWithin (n + 1) p = d.ancestorsWithin n p := ih (by omega)
      rw [ancestorsWithin, ancestorsWithin]
      simp only [hp, hrest]

/-- The number of nodes above a node. -/
def depth (d : Document) (id : NodeId) : Nat := (d.ancestors id).length

theorem length_le_size {l : List NodeId} (hl : l.Nodup) (hlt : ∀ x ∈ l, x.index < d.size) :
    l.length ≤ d.size := by
  rw [← d.length_ids]
  exact (List.subperm_of_subset hl fun x hx => mem_ids.mpr (hlt x hx)).length_le

namespace WellFormed

theorem nodup_ancestorsWithin (h : d.WellFormed) (n : Nat) : (d.ancestorsWithin n x).Nodup := by
  induction n generalizing x with
  | zero => simp [ancestorsWithin]
  | succ n ih =>
    unfold ancestorsWithin
    split
    · next p hp =>
      refine List.nodup_cons.mpr ⟨fun hmem => ?_, ih⟩
      exact h.not_isAncestor_self (isAncestor_of_mem_ancestorsWithin hmem)
    · exact List.nodup_nil

theorem length_ancestorsWithin_lt (h : d.WellFormed) (n : Nat) :
    (d.ancestorsWithin n x).length < d.size := by
  by_cases hx : x.index < d.size
  · -- The node and the nodes above it are pairwise different.
    have hnodup : (x :: d.ancestorsWithin n x).Nodup :=
      List.nodup_cons.mpr
        ⟨fun hmem => h.not_isAncestor_self (isAncestor_of_mem_ancestorsWithin hmem),
          h.nodup_ancestorsWithin n⟩
    have hlt : ∀ y ∈ x :: d.ancestorsWithin n x, y.index < d.size := by
      intro y hy
      rcases List.mem_cons.mp hy with rfl | hy
      · exact hx
      · exact h.ancestor_lt_size (isAncestor_of_mem_ancestorsWithin hy)
    exact length_le_size hnodup hlt
  · have hnone : d.parent? x = none := by
      simp [parent?, node?_eq_none_iff.mpr (Nat.le_of_not_lt hx)]
    have hnil : d.ancestorsWithin n x = [] := by
      cases n with
      | zero => rfl
      | succ n => simp [ancestorsWithin, hnone]
    rw [hnil]
    exact h.size_pos

theorem ancestors_of_isParent (h : d.WellFormed) (hp : d.IsParent p x) :
    d.ancestors x = p :: d.ancestors p := by
  obtain ⟨n, hn⟩ : ∃ n, d.size = n + 1 := ⟨d.size - 1, by have := h.size_pos; omega⟩
  have hx : d.ancestorsWithin (n + 1) x = p :: d.ancestorsWithin n p := by
    rw [ancestorsWithin, show d.parent? x = some p from hp]
  have hlen : (d.ancestorsWithin n p).length < n := by
    have := h.length_ancestorsWithin_lt (x := x) (n + 1)
    rw [hx, List.length_cons, hn] at this
    omega
  unfold ancestors
  rw [hn, hx, ancestorsWithin_succ_of_length_lt hlen]

theorem ancestors_of_parent?_eq_none (h : d.WellFormed) (hx : d.parent? x = none) :
    d.ancestors x = [] := by
  obtain ⟨n, hn⟩ : ∃ n, d.size = n + 1 := ⟨d.size - 1, by have := h.size_pos; omega⟩
  unfold ancestors
  rw [hn, ancestorsWithin, hx]

/-- Induction from the top of a tree downwards. -/
theorem parent_induction (h : d.WellFormed) {motive : NodeId → Prop}
    (top : ∀ x, d.parent? x = none → motive x)
    (below : ∀ p x, d.IsParent p x → motive p → motive x) (x : NodeId) : motive x := by
  induction x using h.grounded.induction with
  | h x ih =>
    cases hp : d.parent? x with
    | none => exact top x hp
    | some p => exact below p x hp (ih p hp)

theorem mem_ancestors (h : d.WellFormed) : a ∈ d.ancestors x ↔ d.IsAncestor a x := by
  refine ⟨isAncestor_of_mem_ancestorsWithin, ?_⟩
  induction x using h.parent_induction with
  | top x hx => exact fun ha => absurd ha (not_isAncestor_of_parent?_eq_none hx)
  | below p x hp ih =>
    intro ha
    rw [h.ancestors_of_isParent hp, List.mem_cons]
    exact (under_iff.mp ((isAncestor_iff_of_isParent hp).mp ha)).imp Eq.symm ih

theorem mem_cons_ancestors (h : d.WellFormed) : a ∈ x :: d.ancestors x ↔ d.Under a x := by
  rw [List.mem_cons, h.mem_ancestors, under_iff, eq_comm]

theorem depth_lt_size (h : d.WellFormed) : d.depth x < d.size := h.length_ancestorsWithin_lt _

theorem depth_of_isParent (h : d.WellFormed) (hp : d.IsParent p x) : d.depth x = d.depth p + 1 := by
  unfold depth
  rw [h.ancestors_of_isParent hp, List.length_cons]

/-! ## Tops -/

theorem top_of_isParent (h : d.WellFormed) (hp : d.IsParent p x) : d.top x = d.top p := by
  unfold top
  rw [h.ancestors_of_isParent hp, List.getLastD_cons]

theorem top_of_parent?_eq_none (h : d.WellFormed) (hx : d.parent? x = none) : d.top x = x := by
  unfold top
  rw [h.ancestors_of_parent?_eq_none hx, List.getLastD_nil]

theorem parent?_top (h : d.WellFormed) : d.parent? (d.top x) = none := by
  induction x using h.parent_induction with
  | top x hx => rwa [h.top_of_parent?_eq_none hx]
  | below p x hp ih => rwa [h.top_of_isParent hp]

theorem under_top (h : d.WellFormed) : d.Under (d.top x) x := by
  induction x using h.parent_induction with
  | top x hx => rw [h.top_of_parent?_eq_none hx]; exact Relation.ReflTransGen.refl
  | below p x hp ih => rw [h.top_of_isParent hp]; exact ih.tail hp

theorem top_eq_of_under (h : d.WellFormed) (ha : d.Under a x) : d.top x = d.top a := by
  induction ha with
  | refl => rfl
  | tail _ hp ih => rw [h.top_of_isParent hp, ih]

theorem top_eq_iff (h : d.WellFormed) : d.top x = t ↔ d.parent? t = none ∧ d.Under t x := by
  constructor
  · rintro rfl
    exact ⟨h.parent?_top, h.under_top⟩
  · rintro ⟨ht, hx⟩
    rw [h.top_eq_of_under hx, h.top_of_parent?_eq_none ht]

theorem top_lt_size (h : d.WellFormed) (hx : x.index < d.size) : (d.top x).index < d.size :=
  h.under_lt_size h.under_top hx

/-! ## Downward walks -/

/-- Induction from the bottom of a tree upwards. -/
theorem child_induction (h : d.WellFormed) {motive : NodeId → Prop}
    (above : ∀ x, (∀ c, d.IsParent x c → motive c) → motive x) (x : NodeId) : motive x := by
  induction hn : d.size - d.depth x using Nat.strong_induction_on generalizing x with
  | h n ih =>
    refine above x fun c hc => ih _ ?_ c rfl
    have hx := h.depth_lt_size (x := x)
    rw [h.depth_of_isParent hc]
    omega

section Walk

-- `w` lists `v` of every node on its way and then goes to the children.
variable {α : Type} {w : Nat → NodeId → List α} {v : NodeId → List α}

theorem walk_succ (h : d.WellFormed)
    (hw : ∀ n x, w (n + 1) x = v x ++ (d.children x).flatMap (w n))
    {n : Nat} (hn : d.size ≤ n + d.depth x) : w (n + 1) x = w n x := by
  induction n generalizing x with
  | zero =>
    have := h.depth_lt_size (x := x)
    omega
  | succ n ih =>
    rw [hw, hw n]
    congr 1
    refine List.flatMap_congr fun c hc => ih ?_
    rw [h.depth_of_isParent (h.isParent_of_mem_children hc)]
    omega

/-- No bound is reached from a bound as great as the number of nodes. -/
theorem walk_size (h : d.WellFormed)
    (hw : ∀ n x, w (n + 1) x = v x ++ (d.children x).flatMap (w n)) :
    w d.size x = v x ++ (d.children x).flatMap (w d.size) := by
  obtain ⟨n, hn⟩ : ∃ n, d.size = n + 1 := ⟨d.size - 1, by have := h.size_pos; omega⟩
  rw [hn, hw]
  congr 1
  refine List.flatMap_congr fun c hc => (h.walk_succ hw ?_).symm
  rw [h.depth_of_isParent (h.isParent_of_mem_children hc)]
  omega

end Walk

theorem subtree_eq (h : d.WellFormed) : d.subtree x = x :: d.descendants x :=
  h.walk_size (w := d.subtreeWithin) (v := fun x => [x]) fun _ _ => rfl

/-- The trees on a stack after the step that takes the uppermost node and pushes its children. -/
theorem flatMap_subtree_cons (h : d.WellFormed) (stack : List NodeId) :
    (x :: stack).flatMap d.subtree = x :: (d.children x ++ stack).flatMap d.subtree := by
  rw [List.flatMap_cons, h.subtree_eq, List.flatMap_append, descendants, List.cons_append]

theorem preorder_eq (h : d.WellFormed) :
    d.preorder x = x :: (d.attributes x ++ (d.children x).flatMap d.preorder) :=
  h.walk_size (w := d.preorderWithin) (v := fun x => x :: d.attributes x) fun _ _ => rfl

/-- Only the links below a node count. -/
theorem preorder_eq_of_under {d' : Document} (h : d.WellFormed) (h' : d'.WellFormed)
    (hsame : ∀ y, d.Under x y → d'.children y = d.children y ∧ d'.attributes y = d.attributes y) :
    d'.preorder x = d.preorder x := by
  induction x using h.child_induction with
  | above x ih =>
    obtain ⟨hchildren, hattributes⟩ := hsame x .refl
    rw [h'.preorder_eq, h.preorder_eq, hchildren, hattributes]
    congr 2
    refine List.flatMap_congr fun c hc => ih c (h.isParent_of_mem_children hc) fun y hy => ?_
    exact hsame y (hy.head (h.isParent_of_mem_children hc))

theorem preorder_eq_of_isAttribute (h : d.WellFormed) (ha : d.isAttribute a) :
    d.preorder a = [a] := by
  rw [h.preorder_eq, h.attributes_eq_nil_of_isAttribute ha, h.children_eq_nil_of_isAttribute ha]
  rfl

/-! ## What a downward walk visits -/

theorem isAncestor_iff_exists_isParent : d.IsAncestor a x ↔ ∃ c, d.IsParent a c ∧ d.Under c x :=
  Relation.TransGen.head'_iff

theorem under_iff_of_isAttribute (h : d.WellFormed) (ha : d.isAttribute a) :
    d.Under a x ↔ x = a := by
  rw [under_iff, or_iff_left_iff_imp]
  intro hax
  obtain ⟨c, hac, -⟩ := isAncestor_iff_exists_isParent.mp hax
  simp [h.isAttribute_eq_false_of_isParent hac] at ha

theorem mem_preorder (h : d.WellFormed) : x ∈ d.preorder a ↔ d.Under a x := by
  induction a using h.child_induction with
  | above a ih =>
    rw [h.preorder_eq, List.mem_cons, List.mem_append, List.mem_flatMap, under_iff,
      isAncestor_iff_exists_isParent]
    refine or_congr Iff.rfl ⟨?_, ?_⟩
    · rintro (hx | ⟨c, hc, hx⟩)
      · exact ⟨x, h.isParent_of_mem_attributes hx, Relation.ReflTransGen.refl⟩
      · have hac := h.isParent_of_mem_children hc
        exact ⟨c, hac, (ih c hac).mp hx⟩
    · rintro ⟨c, hac, hx⟩
      rcases (h.linked a c).mpr hac with hc | hc
      · exact Or.inr ⟨c, hc, (ih c hac).mpr hx⟩
      · left
        rwa [(h.under_iff_of_isAttribute (h.isAttribute_of_mem_attributes hc)).mp hx]

/-- Attributes are left out, unless the walk starts at one. -/
theorem mem_subtree (h : d.WellFormed) :
    x ∈ d.subtree a ↔ d.Under a x ∧ (d.isAttribute x = true → x = a) := by
  induction a using h.child_induction with
  | above a ih =>
    rw [h.subtree_eq, List.mem_cons, descendants, List.mem_flatMap]
    constructor
    · rintro (rfl | ⟨c, hc, hx⟩)
      · exact ⟨Relation.ReflTransGen.refl, fun _ => rfl⟩
      · have hac := h.isParent_of_mem_children hc
        obtain ⟨hcx, hattr⟩ := (ih c hac).mp hx
        refine ⟨hcx.head hac, fun hx' => ?_⟩
        rw [hattr hx', h.isAttribute_eq_false_of_mem_children hc] at hx'
        cases hx'
    · rintro ⟨hax, hattr⟩
      rcases under_iff.mp hax with rfl | hax
      · exact Or.inl rfl
      obtain ⟨c, hac, hcx⟩ := isAncestor_iff_exists_isParent.mp hax
      have hx : d.isAttribute x = false := by
        refine Bool.eq_false_iff.mpr fun hx => ?_
        rw [hattr hx] at hax
        exact h.not_isAncestor_self hax
      right
      rcases (h.linked a c).mpr hac with hc | hc
      · exact ⟨c, hc, (ih c hac).mpr ⟨hcx, by simp [hx]⟩⟩
      · have hattr' := h.isAttribute_of_mem_attributes hc
        rw [(h.under_iff_of_isAttribute hattr').mp hcx, hattr'] at hx
        cases hx

theorem mem_descendants (h : d.WellFormed) :
    x ∈ d.descendants a ↔ d.IsAncestor a x ∧ d.isAttribute x = false := by
  rw [descendants, List.mem_flatMap, isAncestor_iff_exists_isParent]
  constructor
  · rintro ⟨c, hc, hx⟩
    obtain ⟨hcx, hattr⟩ := h.mem_subtree.mp hx
    refine ⟨⟨c, h.isParent_of_mem_children hc, hcx⟩, Bool.eq_false_iff.mpr fun hx' => ?_⟩
    rw [hattr hx', h.isAttribute_eq_false_of_mem_children hc] at hx'
    cases hx'
  · rintro ⟨⟨c, hac, hcx⟩, hx⟩
    rcases (h.linked a c).mpr hac with hc | hc
    · exact ⟨c, hc, h.mem_subtree.mpr ⟨hcx, by simp [hx]⟩⟩
    · have hattr := h.isAttribute_of_mem_attributes hc
      rw [(h.under_iff_of_isAttribute hattr).mp hcx, hattr] at hx
      cases hx

theorem subtree_sublist_preorder (h : d.WellFormed) : (d.subtree x).Sublist (d.preorder x) := by
  induction x using h.child_induction with
  | above x ih =>
    rw [h.subtree_eq, h.preorder_eq, descendants]
    refine List.Sublist.cons_cons x (List.Sublist.trans ?_ (List.sublist_append_right _ _))
    exact List.Sublist.flatMap_right _ fun c hc => ih c (h.isParent_of_mem_children hc)

theorem nodup_preorder (h : d.WellFormed) : (d.preorder x).Nodup := by
  induction x using h.child_induction with
  | above x ih =>
    rw [h.preorder_eq, List.nodup_cons, List.nodup_append, List.nodup_flatMap]
    refine ⟨?_, h.nodup_attributes x, ⟨fun c hc => ih c (h.isParent_of_mem_children hc), ?_⟩, ?_⟩
    · rw [List.mem_append, List.mem_flatMap]
      rintro (hx | ⟨c, hc, hx⟩)
      · exact h.not_isAncestor_self (Relation.TransGen.single (h.isParent_of_mem_attributes hx))
      · exact h.not_isAncestor_self
          (Relation.TransGen.head' (h.isParent_of_mem_children hc) (h.mem_preorder.mp hx))
    · refine (h.nodup_children x).imp_of_mem fun {c c'} hc hc' hne y hy hy' => hne ?_
      exact h.eq_of_under_of_isParent (h.isParent_of_mem_children hc)
        (h.isParent_of_mem_children hc') (h.mem_preorder.mp hy) (h.mem_preorder.mp hy')
    · intro a ha y hy hay
      obtain ⟨c, hc, hy⟩ := List.mem_flatMap.mp hy
      have hca := h.eq_of_under_of_isParent (h.isParent_of_mem_children hc)
        (h.isParent_of_mem_attributes ha) (h.mem_preorder.mp hy) (hay ▸ Relation.ReflTransGen.refl)
      have hfalse := h.isAttribute_eq_false_of_mem_children hc
      rw [hca, h.isAttribute_of_mem_attributes ha] at hfalse
      cases hfalse

theorem nodup_subtree (h : d.WellFormed) : (d.subtree x).Nodup :=
  h.nodup_preorder.sublist h.subtree_sublist_preorder

/-- An unknown node counts as a tree of its own. -/
theorem length_subtree_le (h : d.WellFormed) : (d.subtree x).length ≤ d.size := by
  by_cases hx : x.index < d.size
  · exact length_le_size h.nodup_subtree fun y hy => (h.mem_subtree.mp hy).1.lt_size hx
  · have hnone : d.children x = [] := by
      simp [children, node?_eq_none_iff.mpr (Nat.le_of_not_lt hx)]
    rw [h.subtree_eq, descendants, hnone]
    exact h.size_pos

theorem length_flatMap_subtree_singleton_le (h : d.WellFormed) :
    ([x].flatMap d.subtree).length ≤ d.size := by
  rw [List.flatMap_singleton]
  exact h.length_subtree_le

end WellFormed
end XPath.Document
