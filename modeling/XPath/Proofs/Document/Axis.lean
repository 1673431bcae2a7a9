import XPath.Document.Axis
import XPath.Proofs.Document.Order
import XPath.Proofs.Document.Reachable
/-! The axes against document order. Seen from a node that is no attribute, the tree it belongs to
is cut into what comes before, the tree below the node and what follows; the ancestors are taken out
of what comes before. The climb from parent to parent that collects these parts puts the pieces of
one level around those of the level below. -/
namespace XPath.Document
set_option autoImplicit false

variable {d : Document} {a n p x y : NodeId}

/-! ## Siblings -/

theorem followingSiblings_of_isAttribute (ha : d.isAttribute n) : d.followingSiblings n = [] := by
  rw [followingSiblings, if_pos ha]

theorem precedingSiblings_of_isAttribute (ha : d.isAttribute n) : d.precedingSiblings n = [] := by
  rw [precedingSiblings, if_pos ha]

theorem followingSiblings_of_parent?_eq_none (hn : d.parent? n = none) :
    d.followingSiblings n = [] := by
  unfold followingSiblings
  rw [hn]
  split <;> rfl

theorem precedingSiblings_of_parent?_eq_none (hn : d.parent? n = none) :
    d.precedingSiblings n = [] := by
  unfold precedingSiblings
  rw [hn]
  split <;> rfl

namespace WellFormed

/-- A child stands between the siblings before it and those after it. -/
theorem children_eq (h : d.WellFormed) (hp : d.IsParent p n) (hn : d.isAttribute n = false) :
    d.children p = (d.precedingSiblings n).reverse ++ n :: d.followingSiblings n := by
  obtain ⟨s, t, hst, hs⟩ := List.eq_append_cons_of_mem (h.mem_children_iff.mpr ⟨hp, hn⟩)
  have hparent : d.parent? n = some p := hp
  have hne : ∀ x ∈ s, (x != n) = true := fun x hx => bne_iff_ne.mpr fun e => hs (e ▸ hx)
  unfold precedingSiblings followingSiblings
  simp only [hn, Bool.false_eq_true, if_false, hparent, hst, List.reverse_reverse]
  rw [List.takeWhile_append_of_pos hne, List.dropWhile_append_of_pos hne]
  simp

/-! ## One level up -/

theorem followingFrom_of_isParent (h : d.WellFormed) (hp : d.IsParent p n) :
    d.followingFrom n = (d.followingSiblings n).flatMap d.subtree ++ d.followingFrom p := by
  unfold followingFrom
  rw [h.ancestors_of_isParent hp, List.flatMap_cons]

theorem precedingFrom_of_isParent (h : d.WellFormed) (hp : d.IsParent p n) :
    d.precedingFrom n =
      ((d.precedingSiblings n).reverse.flatMap d.subtree).reverse ++ d.precedingFrom p := by
  unfold precedingFrom
  rw [h.ancestors_of_isParent hp, List.flatMap_cons, List.reverse_flatMap, List.reverse_reverse]
  rfl

theorem followingFrom_of_parent?_eq_none (h : d.WellFormed) (hn : d.parent? n = none) :
    d.followingFrom n = [] := by
  simp [followingFrom, h.ancestors_of_parent?_eq_none hn, followingSiblings_of_parent?_eq_none hn]

theorem precedingFrom_of_parent?_eq_none (h : d.WellFormed) (hn : d.parent? n = none) :
    d.precedingFrom n = [] := by
  simp [precedingFrom, h.ancestors_of_parent?_eq_none hn, precedingSiblings_of_parent?_eq_none hn]

/-! ## The tree around a node -/

/-- Around a node that is no attribute, the tree is what comes before, the node with what is below
it, and what follows; the nodes before are the ancestors and the rest, both turned around. -/
theorem exists_subtree_top_eq (h : d.WellFormed) (hn : d.isAttribute n = false) :
    ∃ before, d.subtree (d.top n) = before ++ d.subtree n ++ d.followingFrom n ∧
      before.Perm (d.ancestors n ++ d.precedingFrom n) ∧
      (d.precedingFrom n).reverse.Sublist before := by
  induction n using h.parent_induction with
  | top n hnone =>
    refine ⟨[], ?_⟩
    simp [h.top_of_parent?_eq_none hnone, h.ancestors_of_parent?_eq_none hnone,
      h.followingFrom_of_parent?_eq_none hnone, h.precedingFrom_of_parent?_eq_none hnone]
  | below p n hp ih =>
    obtain ⟨before, heq, hperm, hpreceding⟩ := ih (h.isAttribute_eq_false_of_isParent hp)
    -- The parent and the subtrees of the siblings before join what is before the parent.
    refine ⟨before ++ p :: (d.precedingSiblings n).reverse.flatMap d.subtree, ?_, ?_, ?_⟩
    · rw [h.top_of_isParent hp, heq, h.subtree_eq (x := p), descendants, h.children_eq hp hn,
        h.followingFrom_of_isParent hp]
      simp
    · rw [h.ancestors_of_isParent hp, h.precedingFrom_of_isParent hp, List.perm_iff_count]
      intro x
      have hcount := List.perm_iff_count.mp hperm x
      simp only [List.count_append, List.count_cons, List.count_reverse] at hcount ⊢
      omega
    · rw [h.precedingFrom_of_isParent hp, List.reverse_append, List.reverse_reverse]
      exact hpreceding.append (List.sublist_cons_self _ _)

theorem isAttribute_top (h : d.WellFormed) (hn : d.isAttribute n = false) :
    d.isAttribute (d.top n) = false := by
  refine Bool.eq_false_iff.mpr fun ha => ?_
  have hself : n = d.top n := (h.under_iff_of_isAttribute ha).mp h.under_top
  rw [← hself, hn] at ha
  cases ha

/-- The tree of a node without its attributes. -/
theorem mem_subtree_top (h : d.WellFormed) (hn : d.isAttribute n = false) :
    x ∈ d.subtree (d.top n) ↔ d.top x = d.top n ∧ d.isAttribute x = false := by
  rw [h.mem_subtree, h.top_eq_iff, and_iff_right h.parent?_top]
  refine and_congr_right fun _ => ⟨fun himp => Bool.eq_false_iff.mpr fun hx => ?_, fun hx hx' => ?_⟩
  · have htop := h.isAttribute_top hn
    rw [← himp hx, hx] at htop
    cases htop
  · rw [hx] at hx'
    cases hx'

/-! ## Up and down -/

theorem listsBackward_ancestors (h : d.WellFormed) :
    d.ListsBackward (d.ancestors n) fun x => d.IsAncestor x n := by
  refine ⟨?_, fun x => h.mem_ancestors⟩
  induction n using h.parent_induction with
  | top n hnone =>
    rw [h.ancestors_of_parent?_eq_none hnone]
    exact List.Pairwise.nil
  | below p n hp ih =>
    rw [h.ancestors_of_isParent hp, List.pairwise_cons]
    exact ⟨fun a ha => h.before_of_isAncestor (h.mem_ancestors.mp ha), ih⟩

theorem pairwise_subtree (h : d.WellFormed) : (d.subtree n).Pairwise d.Before :=
  h.pairwise_preorder.sublist h.subtree_sublist_preorder

theorem listsForward_descendants (h : d.WellFormed) :
    d.ListsForward (d.descendants n) fun x => d.IsAncestor n x ∧ d.isAttribute x = false := by
  refine ⟨?_, fun x => h.mem_descendants⟩
  have hpairwise := h.pairwise_subtree (n := n)
  rw [h.subtree_eq, List.pairwise_cons] at hpairwise
  exact hpairwise.2

/-! ## Before and after a node that is no attribute -/

/-- The tree of a node, cut around it, in terms of document order. -/
theorem exists_cut (h : d.WellFormed) (hn : d.isAttribute n = false) :
    ∃ before, before.Perm (d.ancestors n ++ d.precedingFrom n) ∧
      (d.precedingFrom n).reverse.Sublist before ∧
      (before ++ d.subtree n ++ d.followingFrom n).Pairwise d.Before ∧
      ∀ x, d.top x = d.top n ∧ d.isAttribute x = false ↔
        x ∈ before ∨ x ∈ d.subtree n ∨ x ∈ d.followingFrom n := by
  obtain ⟨before, heq, hperm, hsublist⟩ := h.exists_subtree_top_eq hn
  refine ⟨before, hperm, hsublist, heq ▸ h.pairwise_subtree, fun x => ?_⟩
  rw [← h.mem_subtree_top hn, heq, List.mem_append, List.mem_append, or_assoc]

theorem mem_subtree_self (h : d.WellFormed) : n ∈ d.subtree n := by simp [h.subtree_eq (x := n)]

theorem listsForward_followingFrom (h : d.WellFormed) (hn : d.isAttribute n = false) :
    d.ListsForward (d.followingFrom n) fun x =>
      d.top x = d.top n ∧ d.isAttribute x = false ∧ d.Before n x ∧ ¬ d.IsAncestor n x := by
  obtain ⟨before, -, -, hpairwise, hmem⟩ := h.exists_cut hn
  rw [List.pairwise_append, List.pairwise_append] at hpairwise
  obtain ⟨⟨-, -, hbefore⟩, hfollowing, hafter⟩ := hpairwise
  refine ⟨hfollowing, fun x => ⟨fun hx => ?_, ?_⟩⟩
  · obtain ⟨htop, hattr⟩ := (hmem x).mpr (Or.inr (Or.inr hx))
    refine ⟨htop, hattr, hafter n (List.mem_append_right _ h.mem_subtree_self) x hx, fun hnx => ?_⟩
    have hbelow : x ∈ d.subtree n := h.mem_subtree.mpr ⟨hnx.under, by simp [hattr]⟩
    exact Nat.lt_irrefl _ (hafter x (List.mem_append_right _ hbelow) x hx)
  · rintro ⟨htop, hattr, hnx, hancestor⟩
    rcases (hmem x).mp ⟨htop, hattr⟩ with hx | hx | hx
    · exact absurd hnx (Nat.lt_asymm (hbefore x hx n h.mem_subtree_self))
    · rcases under_iff.mp (h.mem_subtree.mp hx).1 with rfl | hx
      · exact absurd hnx (Nat.lt_irrefl _)
      · exact absurd hx hancestor
    · exact hx

theorem listsBackward_precedingFrom (h : d.WellFormed) (hn : d.isAttribute n = false) :
    d.ListsBackward (d.precedingFrom n) fun x =>
      d.top x = d.top n ∧ d.isAttribute x = false ∧ d.Before x n ∧ ¬ d.IsAncestor x n := by
  obtain ⟨before, hperm, hsublist, hpairwise, hmem⟩ := h.exists_cut hn
  rw [List.pairwise_append, List.pairwise_append] at hpairwise
  obtain ⟨⟨hpairwise, -, hbefore⟩, -, hafter⟩ := hpairwise
  refine ⟨List.pairwise_reverse.mp (hpairwise.sublist hsublist), fun x => ⟨fun hx => ?_, ?_⟩⟩
  · have hx' := hperm.mem_iff.mpr (List.mem_append_right _ hx)
    obtain ⟨htop, hattr⟩ := (hmem x).mpr (Or.inl hx')
    refine ⟨htop, hattr, hbefore x hx' n h.mem_subtree_self, fun hxn => ?_⟩
    have hdisjoint := (List.nodup_append.mp (hperm.nodup_iff.mp hpairwise.nodup)).2.2
    exact hdisjoint x (h.mem_ancestors.mpr hxn) x hx rfl
  · rintro ⟨htop, hattr, hxn, hancestor⟩
    rcases (hmem x).mp ⟨htop, hattr⟩ with hx | hx | hx
    · rcases List.mem_append.mp (hperm.mem_iff.mp hx) with hx | hx
      · exact absurd (h.mem_ancestors.mp hx) hancestor
      · exact hx
    · rcases under_iff.mp (h.mem_subtree.mp hx).1 with rfl | hx
      · exact absurd hxn (Nat.lt_irrefl _)
      · exact absurd hxn (Nat.lt_asymm (h.before_of_isAncestor hx))
    · exact absurd hxn (Nat.lt_asymm (hafter n (List.mem_append_right _ h.mem_subtree_self) x hx))

/-- The five axes cut the tree of a node into parts without overlap. -/
theorem axes_perm_subtree_top (h : d.WellFormed) (hn : d.isAttribute n = false) :
    (n :: (d.ancestors n ++ d.descendants n ++ d.following n ++ d.preceding n)).Perm
      (d.subtree (d.top n)) := by
  obtain ⟨before, heq, hperm, -⟩ := h.exists_subtree_top_eq hn
  rw [heq, h.subtree_eq, following, preceding, if_neg (by simp [hn]), if_neg (by simp [hn]),
    List.perm_iff_count]
  intro x
  have hcount := List.perm_iff_count.mp hperm x
  simp only [List.count_append, List.count_cons] at hcount ⊢
  omega

/-! ## Before and after an attribute -/

/-- What is outside of the tree below a node and after the node is after all of that tree. -/
theorem before_of_not_under (h : d.WellFormed) (hp : p.index < d.size)
    (hpx : d.Before p x) (hunder : ¬ d.Under p x) (hpy : d.Under p y) : d.Before y x := by
  have hinterval := h.image_orderIndex_under hp
  have hy : d.orderIndex y ∈ d.orderIndex '' {z | d.Under p z} := ⟨y, hpy, rfl⟩
  have hx' : d.orderIndex x ∉ d.orderIndex '' {z | d.Under p z} := by
    rintro ⟨z, hpz, hzx⟩
    exact hunder ((h.orderIndex_inj (Under.lt_size hpz hp)).mp hzx ▸ hpz)
  rw [hinterval, Set.mem_Ico] at hy hx'
  unfold Before at hpx ⊢
  omega

/-- The content of an element comes after its attributes. -/
theorem before_of_mem_attributes (h : d.WellFormed) (ha : a ∈ d.attributes p)
    (hx : d.IsAncestor p x) (hattr : d.isAttribute x = false) : d.Before a x := by
  obtain ⟨k, hk, rfl⟩ := List.getElem_of_mem ha
  have hmem := h.mem_descendants.mpr ⟨hx, hattr⟩
  obtain ⟨c, hc, hcx⟩ := List.mem_flatMap.mp hmem
  have hcontent := h.lt_orderIndex_of_under_child hc (h.mem_subtree.mp hcx).1
  unfold Before
  rw [h.orderIndex_attributes hk]
  omega

theorem before_or_before (h : d.WellFormed) (hx : x.index < d.size) (hne : x ≠ y) :
    d.Before x y ∨ d.Before y x :=
  Nat.lt_or_gt_of_ne fun heq => hne ((h.orderIndex_inj hx).mp heq)

section Owner

variable (h : d.WellFormed) (ha : a ∈ d.attributes p)
include h ha

theorem following_of_owner : d.following a = d.descendants p ++ d.followingFrom p := by
  rw [following, if_pos (h.isAttribute_of_mem_attributes ha),
    show d.parent? a = some p from h.isParent_of_mem_attributes ha]

theorem preceding_of_owner : d.preceding a = d.precedingFrom p := by
  rw [preceding, if_pos (h.isAttribute_of_mem_attributes ha),
    show d.parent? a = some p from h.isParent_of_mem_attributes ha]

theorem listsForward_following_of_owner : d.ListsForward (d.following a) fun x =>
    d.top x = d.top a ∧ d.isAttribute x = false ∧ d.Before a x ∧ ¬ d.IsAncestor a x := by
  have hpa := h.isParent_of_mem_attributes ha
  have hplt := h.parent_lt_size hpa
  have hp := h.isAttribute_eq_false_of_isParent hpa
  have hbelow := h.listsForward_descendants (n := p)
  have hafter := h.listsForward_followingFrom hp
  rw [following_of_owner h ha]
  refine ⟨?_, fun x => ?_⟩
  · obtain ⟨before, -, -, hpairwise, -⟩ := h.exists_cut hp
    rw [h.subtree_eq, List.append_assoc, List.pairwise_append] at hpairwise
    exact (List.pairwise_cons.mp hpairwise.2.1).2
  · rw [List.mem_append, hbelow.mem_iff, hafter.mem_iff, h.top_of_isParent hpa]
    have hnone : ¬ d.IsAncestor a x := fun hax => by
      obtain ⟨c, hac, -⟩ := isAncestor_iff_exists_isParent.mp hax
      simpa [h.isAttribute_eq_false_of_isParent hac] using h.isAttribute_of_mem_attributes ha
    constructor
    · rintro (⟨hpx, hattr⟩ | ⟨htop, hattr, hpx, hancestor⟩)
      · exact ⟨h.top_eq_of_under hpx.under, hattr, h.before_of_mem_attributes ha hpx hattr, hnone⟩
      · refine ⟨htop, hattr, h.before_of_not_under hplt hpx ?_ (.single hpa), hnone⟩
        intro hunder
        rcases under_iff.mp hunder with rfl | hpx'
        · exact Nat.lt_irrefl _ hpx
        · exact hancestor hpx'
    · rintro ⟨htop, hattr, hax, -⟩
      by_cases hpx : d.IsAncestor p x
      · exact Or.inl ⟨hpx, hattr⟩
      · have hba : d.Before p a := h.before_of_isAncestor (.single hpa)
        exact Or.inr ⟨htop, hattr, Nat.lt_trans hba hax, hpx⟩

theorem listsBackward_preceding_of_owner : d.ListsBackward (d.preceding a) fun x =>
    d.top x = d.top a ∧ d.isAttribute x = false ∧ d.Before x a ∧ ¬ d.IsAncestor x a := by
  have hpa := h.isParent_of_mem_attributes ha
  have hplt := h.parent_lt_size hpa
  have hp := h.isAttribute_eq_false_of_isParent hpa
  have hbefore := h.listsBackward_precedingFrom hp
  rw [preceding_of_owner h ha]
  refine ⟨hbefore.pairwise, fun x => ?_⟩
  rw [hbefore.mem_iff, h.top_of_isParent hpa, isAncestor_iff_of_isParent hpa]
  constructor
  · rintro ⟨htop, hattr, hxp, hancestor⟩
    refine ⟨htop, hattr, hxp.trans (h.before_of_isAncestor (.single hpa)), ?_⟩
    intro hunder
    rcases under_iff.mp hunder with rfl | hxp'
    · exact Nat.lt_irrefl _ hxp
    · exact hancestor hxp'
  · rintro ⟨htop, hattr, hxa, hunder⟩
    have hne : p ≠ x := fun e => hunder (e ▸ .refl)
    refine ⟨htop, hattr, (h.before_or_before hplt hne).resolve_left fun hpx => ?_,
      fun hxp => hunder hxp.under⟩
    -- After its element and not below it, or below it, the node would come after the attribute.
    by_cases hpx' : d.IsAncestor p x
    · exact Nat.lt_asymm hxa (h.before_of_mem_attributes ha hpx' hattr)
    · refine Nat.lt_asymm hxa (h.before_of_not_under hplt hpx ?_ (.single hpa))
      exact fun hunder' => (under_iff.mp hunder').elim (fun e => hne e.symm) hpx'

end Owner

/-! ## The axes of every node -/

/-- A node without a parent is a tree of its own if it is an attribute. -/
theorem eq_of_top_eq_of_isAttribute (h : d.WellFormed) (ha : d.isAttribute a)
    (hnone : d.parent? a = none) (hx : d.top x = d.top a) : x = a := by
  rw [h.top_of_parent?_eq_none hnone, h.top_eq_iff] at hx
  exact (h.under_iff_of_isAttribute ha).mp hx.2

theorem listsForward_following (h : d.WellFormed) :
    d.ListsForward (d.following n) fun x =>
      d.top x = d.top n ∧ d.isAttribute x = false ∧ d.Before n x ∧ ¬ d.IsAncestor n x := by
  cases ha : d.isAttribute n with
  | false =>
    rw [following, if_neg (by simp [ha])]
    exact h.listsForward_followingFrom ha
  | true =>
    cases hp : d.parent? n with
    | some p => exact listsForward_following_of_owner h (h.mem_attributes_iff.mpr ⟨hp, ha⟩)
    | none =>
      rw [following, if_pos ha, hp]
      refine ⟨List.Pairwise.nil, fun x => ⟨fun hx => absurd hx List.not_mem_nil, ?_⟩⟩
      rintro ⟨htop, -, hnx, -⟩
      rw [h.eq_of_top_eq_of_isAttribute ha hp htop] at hnx
      exact absurd hnx (Nat.lt_irrefl _)

theorem listsBackward_preceding (h : d.WellFormed) :
    d.ListsBackward (d.preceding n) fun x =>
      d.top x = d.top n ∧ d.isAttribute x = false ∧ d.Before x n ∧ ¬ d.IsAncestor x n := by
  cases ha : d.isAttribute n with
  | false =>
    rw [preceding, if_neg (by simp [ha])]
    exact h.listsBackward_precedingFrom ha
  | true =>
    cases hp : d.parent? n with
    | some p => exact listsBackward_preceding_of_owner h (h.mem_attributes_iff.mpr ⟨hp, ha⟩)
    | none =>
      rw [preceding, if_pos ha, hp]
      refine ⟨List.Pairwise.nil, fun x => ⟨fun hx => absurd hx List.not_mem_nil, ?_⟩⟩
      rintro ⟨htop, -, hxn, -⟩
      rw [h.eq_of_top_eq_of_isAttribute ha hp htop] at hxn
      exact absurd hxn (Nat.lt_irrefl _)

/-! ## The siblings of every node -/

theorem pairwise_before_children (h : d.WellFormed) : (d.children p).Pairwise d.Before :=
  h.pairwise_children.imp fun hab => hab _ _ .refl .refl

theorem listsForward_followingSiblings (h : d.WellFormed) :
    d.ListsForward (d.followingSiblings n) fun x =>
      d.isAttribute n = false ∧ ∃ p, d.parent? n = some p ∧ x ∈ d.children p ∧ d.Before n x := by
  cases ha : d.isAttribute n with
  | true =>
    rw [followingSiblings_of_isAttribute ha]
    exact ⟨List.Pairwise.nil, fun x => by simp⟩
  | false =>
    cases hp : d.parent? n with
    | none =>
      rw [followingSiblings_of_parent?_eq_none hp]
      exact ⟨List.Pairwise.nil, fun x => by simp⟩
    | some p =>
      have hpairwise := h.pairwise_before_children (p := p)
      have heq := h.children_eq hp ha
      rw [heq, List.pairwise_append, List.pairwise_cons] at hpairwise
      obtain ⟨-, ⟨hafter, hpairwise⟩, hbefore⟩ := hpairwise
      refine ⟨hpairwise, fun x => ⟨fun hx => ?_, ?_⟩⟩
      · exact ⟨rfl, p, rfl, by simp [heq, hx], hafter x hx⟩
      · rintro ⟨-, q, hq, hx, hnx⟩
        obtain rfl := Option.some.inj hq
        rw [heq, List.mem_append, List.mem_cons] at hx
        rcases hx with hx | rfl | hx
        · exact absurd hnx (Nat.lt_asymm (hbefore x hx n List.mem_cons_self))
        · exact absurd hnx (Nat.lt_irrefl _)
        · exact hx

theorem listsBackward_precedingSiblings (h : d.WellFormed) :
    d.ListsBackward (d.precedingSiblings n) fun x =>
      d.isAttribute n = false ∧ ∃ p, d.parent? n = some p ∧ x ∈ d.children p ∧ d.Before x n := by
  cases ha : d.isAttribute n with
  | true =>
    rw [precedingSiblings_of_isAttribute ha]
    exact ⟨List.Pairwise.nil, fun x => by simp⟩
  | false =>
    cases hp : d.parent? n with
    | none =>
      rw [precedingSiblings_of_parent?_eq_none hp]
      exact ⟨List.Pairwise.nil, fun x => by simp⟩
    | some p =>
      have hpairwise := h.pairwise_before_children (p := p)
      have heq := h.children_eq hp ha
      rw [heq, List.pairwise_append, List.pairwise_cons] at hpairwise
      obtain ⟨hpairwise, ⟨hafter, -⟩, hbefore⟩ := hpairwise
      refine ⟨List.pairwise_reverse.mp hpairwise, fun x => ⟨fun hx => ?_, ?_⟩⟩
      · have hx' : x ∈ (d.precedingSiblings n).reverse := List.mem_reverse.mpr hx
        exact ⟨rfl, p, rfl, by simp [heq, hx], hbefore x hx' n List.mem_cons_self⟩
      · rintro ⟨-, q, hq, hx, hxn⟩
        obtain rfl := Option.some.inj hq
        rw [heq, List.mem_append, List.mem_cons, List.mem_reverse] at hx
        rcases hx with hx | rfl | hx
        · exact hx
        · exact absurd hxn (Nat.lt_irrefl _)
        · exact absurd hxn (Nat.lt_asymm (hafter x hx))

/-! ## All axes -/

theorem pairwise_attributes (h : d.WellFormed) : (d.attributes p).Pairwise d.Before := by
  have hpairwise := h.pairwise_preorder (x := p)
  rw [h.preorder_eq, List.pairwise_cons, List.pairwise_append] at hpairwise
  exact hpairwise.2.1

/-- A forward axis is in document order, whatever the node it starts from. -/
theorem pairwise_axis (h : d.WellFormed) {axis : Axis} (hforward : axis.isReverse = false) :
    (axis.nodes d n).Pairwise d.Before := by
  cases axis with
  | child => exact h.pairwise_before_children
  | descendantOrSelf =>
    have hpairwise := h.pairwise_subtree (n := n)
    rwa [h.subtree_eq] at hpairwise
  | descendant => exact h.listsForward_descendants.pairwise
  | «attribute» => exact h.pairwise_attributes
  | namespaceNode => exact List.Pairwise.nil
  | parent =>
    show (d.parent? n).toList.Pairwise d.Before
    cases d.parent? n with
    | none => exact List.Pairwise.nil
    | some p => exact List.pairwise_singleton _ p
  | self => exact List.pairwise_singleton _ n
  | followingSibling => exact h.listsForward_followingSiblings.pairwise
  | following => exact h.listsForward_following.pairwise
  | ancestor => cases hforward
  | ancestorOrSelf => cases hforward
  | preceding => cases hforward
  | precedingSibling => cases hforward

theorem lt_size_of_top_eq (h : d.WellFormed) (hlt : n.index < d.size) (hx : d.top x = d.top n) :
    x.index < d.size :=
  (h.top_eq_iff.mp hx).2.lt_size (h.top_lt_size hlt)

/-- No axis leads out of the document. -/
theorem lt_size_of_mem_axis (h : d.WellFormed) {axis : Axis} (hlt : n.index < d.size)
    (hx : x ∈ axis.nodes d n) : x.index < d.size := by
  have hbelow : x ∈ d.descendants n → x.index < d.size := fun hx =>
    (h.mem_descendants.mp hx).1.under.lt_size hlt
  have habove : x ∈ d.ancestors n → x.index < d.size := fun hx =>
    h.ancestor_lt_size (h.mem_ancestors.mp hx)
  have hself : x = n → x.index < d.size := fun hx => hx ▸ hlt
  cases axis with
  | child => exact (h.isParent_of_mem_children hx).lt_size
  | descendantOrSelf => exact (List.mem_cons.mp hx).elim hself hbelow
  | descendant => exact hbelow hx
  | «attribute» => exact (h.isParent_of_mem_attributes hx).lt_size
  | namespaceNode => exact absurd hx List.not_mem_nil
  | parent => exact h.parent_lt_size (Option.mem_toList.mp hx)
  | ancestorOrSelf => exact (List.mem_cons.mp hx).elim hself habove
  | ancestor => exact habove hx
  | self => exact hself (List.mem_singleton.mp hx)
  | followingSibling =>
    obtain ⟨-, p, -, hc, -⟩ := (h.listsForward_followingSiblings.mem_iff x).mp hx
    exact (h.isParent_of_mem_children hc).lt_size
  | precedingSibling =>
    obtain ⟨-, p, -, hc, -⟩ := (h.listsBackward_precedingSiblings.mem_iff x).mp hx
    exact (h.isParent_of_mem_children hc).lt_size
  | following => exact h.lt_size_of_top_eq hlt ((h.listsForward_following.mem_iff x).mp hx).1
  | preceding => exact h.lt_size_of_top_eq hlt ((h.listsBackward_preceding.mem_iff x).mp hx).1

end WellFormed

/-- What each axis lists, at any node of a reachable document. The tree of a node consists of the
nodes with the same top. -/
theorem Reachable.axes_exact (h : d.Reachable) (n : NodeId) :
    (d.ListsForward (d.descendants n) fun x => d.IsAncestor n x ∧ d.isAttribute x = false) ∧
    (d.ListsBackward (d.ancestors n) fun x => d.IsAncestor x n) ∧
    (d.ListsForward (d.following n) fun x =>
      d.top x = d.top n ∧ d.isAttribute x = false ∧ d.Before n x ∧ ¬ d.IsAncestor n x) ∧
    (d.ListsBackward (d.preceding n) fun x =>
      d.top x = d.top n ∧ d.isAttribute x = false ∧ d.Before x n ∧ ¬ d.IsAncestor x n) ∧
    (d.ListsForward (d.followingSiblings n) fun x =>
      d.isAttribute n = false ∧ ∃ p, d.parent? n = some p ∧ x ∈ d.children p ∧ d.Before n x) ∧
    (d.ListsBackward (d.precedingSiblings n) fun x =>
      d.isAttribute n = false ∧ ∃ p, d.parent? n = some p ∧ x ∈ d.children p ∧ d.Before x n) ∧
    (∀ p, d.parent? n = some p → d.isAttribute n = false →
      d.children p = (d.precedingSiblings n).reverse ++ n :: d.followingSiblings n) ∧
    (d.isAttribute n = false →
      let parts := n :: (d.ancestors n ++ d.descendants n ++ d.following n ++ d.preceding n)
      parts.Nodup ∧ ∀ x, x ∈ parts ↔ d.top x = d.top n ∧ d.isAttribute x = false) := by
  have hwf := h.wellFormed
  refine ⟨hwf.listsForward_descendants, hwf.listsBackward_ancestors,
    hwf.listsForward_following, hwf.listsBackward_preceding,
    hwf.listsForward_followingSiblings, hwf.listsBackward_precedingSiblings,
    fun p hp hn => hwf.children_eq hp hn, fun hn => ?_⟩
  have hperm := hwf.axes_perm_subtree_top hn
  refine ⟨hperm.nodup_iff.mpr hwf.nodup_subtree, fun x => ?_⟩
  rw [hperm.mem_iff, hwf.mem_subtree_top hn]

/-- The text of an element follows its attribute, and nothing precedes the attribute. -/
theorem axes_exact_at_attribute :
    let d := Edit.afterAll .empty [.createElement "a" none, .createText "t",
      .appendChild ⟨1⟩ ⟨2⟩, .setAttribute ⟨1⟩ "k" none "v"]
    d.Reachable ∧ (d.following ⟨3⟩ = [⟨2⟩] ∧ (d.following ⟨3⟩).Pairwise d.Before) ∧
      d.preceding ⟨3⟩ = [] ∧ ¬ (d.isAttribute ⟨1⟩ = false ∧ d.Before ⟨1⟩ ⟨3⟩ ∧
        d.top ⟨1⟩ = d.top ⟨3⟩ ∧ ¬ d.IsAncestor ⟨1⟩ ⟨3⟩) := by
  intro d
  have h : d.Reachable := Reachable.empty.afterAll _
  have hnil : d.preceding ⟨3⟩ = [] := by decide
  obtain ⟨-, -, hfollowing, hpreceding, -⟩ := h.axes_exact ⟨3⟩
  refine ⟨h, ⟨by decide, hfollowing.pairwise⟩, hnil, ?_⟩
  rintro ⟨hattr, hbefore, htop, hancestor⟩
  have hmem := (hpreceding.mem_iff ⟨1⟩).mpr ⟨htop, hattr, hbefore, hancestor⟩
  rw [hnil] at hmem
  exact absurd hmem List.not_mem_nil

end XPath.Document
