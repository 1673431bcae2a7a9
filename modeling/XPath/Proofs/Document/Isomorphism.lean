import XPath.Proofs.Document.Axis
import XPath.Proofs.Document.StringValue
/-! Isomorphic trees. A bijection between two trees that keeps the content and the links of every
node keeps everything that is computed from them: the walks, document order inside of the tree,
the axes and the string values. Where the trees stand in their documents does not matter, as every
tree is a stretch of document order. -/
namespace XPath.Document
set_option autoImplicit false

/-- The nodes of the tree that a node belongs to, attributes included. -/
def tree (d : Document) (id : NodeId) : Set NodeId := {x | d.top x = d.top id}

/-- `f` takes the tree around `c` to the tree around `c'` and keeps content and links. -/
structure TreeIso (d d' : Document) (c c' : NodeId) (f : NodeId → NodeId) : Prop where
  bijOn : Set.BijOn f (d.tree c) (d'.tree c')
  context : f c = c'
  kind? : ∀ x ∈ d.tree c, d'.kind? (f x) = d.kind? x
  parent? : ∀ x ∈ d.tree c, d'.parent? (f x) = (d.parent? x).map f
  children : ∀ x ∈ d.tree c, d'.children (f x) = (d.children x).map f
  attributes : ∀ x ∈ d.tree c, d'.attributes (f x) = (d.attributes x).map f

variable {d d' : Document} {c c' p x y : NodeId} {f : NodeId → NodeId}
  {ids l : List NodeId}

/-! ## Trees -/

theorem mem_tree_self : c ∈ d.tree c := rfl

namespace WellFormed

theorem tree_top (h : d.WellFormed) : d.tree (d.top c) = d.tree c := by
  unfold tree
  rw [h.top_of_parent?_eq_none h.parent?_top]

theorem top_mem_tree (h : d.WellFormed) : d.top c ∈ d.tree c :=
  h.top_of_parent?_eq_none h.parent?_top

theorem mem_tree_of_under (h : d.WellFormed) (hx : x ∈ d.tree c) (hxy : d.Under x y) :
    y ∈ d.tree c := (h.top_eq_of_under hxy).trans hx

theorem mem_tree_of_isParent (h : d.WellFormed) (hx : x ∈ d.tree c) (hp : d.IsParent p x) :
    p ∈ d.tree c := (h.top_of_isParent hp).symm.trans hx

theorem mem_tree_of_mem_children (h : d.WellFormed) (hx : x ∈ d.tree c) (hy : y ∈ d.children x) :
    y ∈ d.tree c := h.mem_tree_of_under hx (.single (h.isParent_of_mem_children hy))

theorem mem_tree_of_mem_attributes (h : d.WellFormed) (hx : x ∈ d.tree c)
    (hy : y ∈ d.attributes x) : y ∈ d.tree c :=
  h.mem_tree_of_under hx (.single (h.isParent_of_mem_attributes hy))

theorem mem_tree_of_mem_ancestors (h : d.WellFormed) (hx : x ∈ d.tree c)
    (hy : y ∈ d.ancestors x) : y ∈ d.tree c :=
  (h.top_eq_of_under (h.mem_ancestors.mp hy).under).symm.trans hx

theorem mem_tree_of_mem_descendants (h : d.WellFormed) (hx : x ∈ d.tree c)
    (hy : y ∈ d.descendants x) : y ∈ d.tree c :=
  h.mem_tree_of_under hx (h.mem_descendants.mp hy).1.under

theorem mem_tree_of_mem_subtree (h : d.WellFormed) (hx : x ∈ d.tree c)
    (hy : y ∈ d.subtree x) : y ∈ d.tree c := h.mem_tree_of_under hx (h.mem_subtree.mp hy).1

theorem mem_tree_of_mem_sibling (h : d.WellFormed) (hx : x ∈ d.tree c)
    (hy : ∃ p, d.parent? x = some p ∧ y ∈ d.children p) : y ∈ d.tree c := by
  obtain ⟨p, hp, hy⟩ := hy
  exact h.mem_tree_of_mem_children (h.mem_tree_of_isParent hx hp) hy

/-- The nodes of a tree are among those of the document. -/
theorem forall_mem_tree (h : d.WellFormed) (hc : c.index < d.size) {P : NodeId → Prop}
    (hP : ∀ x ∈ d.ids, d.top x = d.top c → P x) : ∀ x ∈ d.tree c, P x :=
  fun x hx => hP x (mem_ids.mpr (h.lt_size_of_top_eq hc hx)) hx

/-- No axis leads out of the tree. -/
theorem mem_tree_of_mem_axis (h : d.WellFormed) {axis : Axis} (hx : x ∈ d.tree c)
    (hy : y ∈ axis.nodes d x) : y ∈ d.tree c := by
  cases axis with
  | child => exact h.mem_tree_of_mem_children hx hy
  | descendantOrSelf =>
    rcases List.mem_cons.mp hy with rfl | hy
    · exact hx
    · exact h.mem_tree_of_mem_descendants hx hy
  | descendant => exact h.mem_tree_of_mem_descendants hx hy
  | «attribute» => exact h.mem_tree_of_mem_attributes hx hy
  | namespaceNode => exact absurd hy List.not_mem_nil
  | parent => exact h.mem_tree_of_isParent hx (Option.mem_toList.mp hy)
  | ancestorOrSelf =>
    rcases List.mem_cons.mp hy with rfl | hy
    · exact hx
    · exact h.mem_tree_of_mem_ancestors hx hy
  | ancestor => exact h.mem_tree_of_mem_ancestors hx hy
  | self => exact List.mem_singleton.mp hy ▸ hx
  | followingSibling =>
    obtain ⟨-, p, hp, hc, -⟩ := (h.listsForward_followingSiblings.mem_iff y).mp hy
    exact h.mem_tree_of_mem_sibling hx ⟨p, hp, hc⟩
  | precedingSibling =>
    obtain ⟨-, p, hp, hc, -⟩ := (h.listsBackward_precedingSiblings.mem_iff y).mp hy
    exact h.mem_tree_of_mem_sibling hx ⟨p, hp, hc⟩
  | following => exact ((h.listsForward_following.mem_iff y).mp hy).1.trans hx
  | preceding => exact ((h.listsBackward_preceding.mem_iff y).mp hy).1.trans hx

end WellFormed

/-! ## Lists of nodes -/

theorem flatMap_map_eq {α : Type} {g g' : NodeId → List α} (hl : ∀ y ∈ l, g' (f y) = g y) :
    (l.map f).flatMap g' = l.flatMap g := by
  rw [List.flatMap_map]
  exact List.flatMap_congr hl

theorem flatMap_map_eq_map {g g' : NodeId → List NodeId}
    (hl : ∀ y ∈ l, g' (f y) = (g y).map f) : (l.map f).flatMap g' = (l.flatMap g).map f := by
  rw [List.map_flatMap, flatMap_map_eq hl]

theorem filter_map_eq {keep keep' : NodeId → Bool} (hl : ∀ y ∈ l, keep' (f y) = keep y) :
    (l.map f).filter keep' = (l.filter keep).map f := by
  rw [List.filter_map]
  exact congrArg (List.map f) (List.filter_congr hl)

theorem find?_map_eq {test test' : NodeId → Bool} (hl : ∀ y ∈ l, test' (f y) = test y) :
    (l.map f).find? test' = (l.find? test).map f := by
  rw [← List.head?_filter, filter_map_eq hl, List.head?_map, List.head?_filter]

theorem any_map_eq {test test' : NodeId → Bool} (hl : ∀ y ∈ l, test' (f y) = test y) :
    (l.map f).any test' = l.any test := by
  rw [← List.isSome_find?, find?_map_eq hl, Option.isSome_map, List.isSome_find?]

theorem findSome?_map_eq {α : Type} {say say' : NodeId → Option α}
    (hl : ∀ y ∈ l, say' (f y) = say y) : (l.map f).findSome? say' = l.findSome? say := by
  rw [List.findSome?_map, ← List.head?_filterMap, ← List.head?_filterMap]
  exact congrArg List.head? (List.filterMap_congr hl)

theorem dropWhile_map_eq {test test' : NodeId → Bool} (hl : ∀ y ∈ l, test' (f y) = test y) :
    (l.map f).dropWhile test' = (l.dropWhile test).map f := by
  induction l with
  | nil => rfl
  | cons y l ih =>
    obtain ⟨hy, hl⟩ := List.forall_mem_cons.mp hl
    rw [List.map_cons, List.dropWhile_cons, List.dropWhile_cons, hy, ih hl]
    split <;> rfl

theorem takeWhile_map_eq {test test' : NodeId → Bool} (hl : ∀ y ∈ l, test' (f y) = test y) :
    (l.map f).takeWhile test' = (l.takeWhile test).map f := by
  induction l with
  | nil => rfl
  | cons y l ih =>
    obtain ⟨hy, hl⟩ := List.forall_mem_cons.mp hl
    rw [List.map_cons, List.takeWhile_cons, List.takeWhile_cons, hy, ih hl]
    split <;> rfl

namespace TreeIso

variable (h : d.WellFormed) (h' : d'.WellFormed) (hf : d.TreeIso d' c c' f)

/-! ## Content -/

include hf

theorem eq_iff (hx : x ∈ d.tree c) (hy : y ∈ d.tree c) : f x = f y ↔ x = y :=
  hf.bijOn.injOn.eq_iff hx hy

theorem bne_eq (hx : x ∈ d.tree c) (hy : y ∈ d.tree c) : (f x != f y) = (x != y) := by
  rw [Bool.eq_iff_iff, bne_iff_ne, bne_iff_ne, ne_eq, ne_eq, hf.eq_iff hx hy]

theorem isElement (hx : x ∈ d.tree c) : d'.isElement (f x) = d.isElement x := by
  unfold Document.isElement
  rw [hf.kind? x hx]

theorem isAttribute (hx : x ∈ d.tree c) : d'.isAttribute (f x) = d.isAttribute x := by
  unfold Document.isAttribute
  rw [hf.kind? x hx]

theorem name? (hx : x ∈ d.tree c) : d'.name? (f x) = d.name? x := by
  unfold Document.name?
  rw [hf.kind? x hx]

theorem uri? (hx : x ∈ d.tree c) : d'.uri? (f x) = d.uri? x := by
  unfold Document.uri?
  rw [hf.kind? x hx]

theorem ownText (hx : x ∈ d.tree c) : d'.ownText (f x) = d.ownText x := by
  unfold Document.ownText
  rw [hf.kind? x hx]

theorem lt_size (hx : x ∈ d.tree c) (hlt : x.index < d.size) : (f x).index < d'.size := by
  obtain ⟨kind, hkind⟩ : ∃ kind, d.kind? x = some kind := by
    obtain ⟨node, hnode⟩ := Option.isSome_iff_exists.mp (node?_isSome_iff.mpr hlt)
    exact ⟨node.kind, by rw [Document.kind?, hnode]; rfl⟩
  exact lt_size_of_kind? ((hf.kind? x hx).trans hkind)

/-! ## Walks -/

theorem isParent (hx : x ∈ d.tree c) (hp : d.IsParent p x) : d'.IsParent (f p) (f x) := by
  rw [IsParent, hf.parent? x hx, show d.parent? x = some p from hp, Option.map_some]

include h h'

theorem ancestors (hx : x ∈ d.tree c) : d'.ancestors (f x) = (d.ancestors x).map f := by
  induction x using h.parent_induction with
  | top x hnone =>
    have hnone' : d'.parent? (f x) = none := by rw [hf.parent? x hx, hnone, Option.map_none]
    rw [h'.ancestors_of_parent?_eq_none hnone', h.ancestors_of_parent?_eq_none hnone, List.map_nil]
  | below p x hp ih =>
    rw [h'.ancestors_of_isParent (hf.isParent hx hp), h.ancestors_of_isParent hp, List.map_cons,
      ih (h.mem_tree_of_isParent hx hp)]

theorem top (hx : x ∈ d.tree c) : d'.top (f x) = f (d.top c) := by
  rw [← show d.top x = d.top c from hx]
  unfold Document.top
  rw [hf.ancestors h h' hx, List.getLastD_map]

/-- An isomorphism takes top to top. -/
theorem at_top : d.TreeIso d' (d.top c) (d'.top c') f where
  bijOn := by rw [h.tree_top, h'.tree_top]; exact hf.bijOn
  context := by rw [← hf.top h h' mem_tree_self, hf.context]
  kind? := by rw [h.tree_top]; exact hf.kind?
  parent? := by rw [h.tree_top]; exact hf.parent?
  children := by rw [h.tree_top]; exact hf.children
  attributes := by rw [h.tree_top]; exact hf.attributes

theorem subtree (hx : x ∈ d.tree c) : d'.subtree (f x) = (d.subtree x).map f := by
  induction x using h.child_induction with
  | above x ih =>
    rw [h'.subtree_eq, h.subtree_eq, List.map_cons, descendants, descendants, hf.children x hx]
    refine congrArg (f x :: ·) (flatMap_map_eq_map fun y hy => ?_)
    exact ih y (h.isParent_of_mem_children hy) (h.mem_tree_of_mem_children hx hy)

theorem descendants (hx : x ∈ d.tree c) : d'.descendants (f x) = (d.descendants x).map f := by
  rw [Document.descendants, Document.descendants, hf.children x hx]
  exact flatMap_map_eq_map fun y hy => hf.subtree h h' (h.mem_tree_of_mem_children hx hy)

theorem preorder (hx : x ∈ d.tree c) : d'.preorder (f x) = (d.preorder x).map f := by
  induction x using h.child_induction with
  | above x ih =>
    rw [h'.preorder_eq, h.preorder_eq, List.map_cons, List.map_append, hf.children x hx,
      hf.attributes x hx]
    refine congrArg (f x :: List.map f _ ++ ·) (flatMap_map_eq_map fun y hy => ?_)
    exact ih y (h.isParent_of_mem_children hy) (h.mem_tree_of_mem_children hx hy)

theorem stringValue (hx : x ∈ d.tree c) : d'.stringValue (f x) = d.stringValue x := by
  have htext : d'.textWithin d'.size (f x) = d.textWithin d.size x := by
    rw [h'.textWithin_size, h.textWithin_size, hf.descendants h h' hx, List.map_map]
    congr 1
    exact List.map_congr_left fun y hy => hf.ownText (h.mem_tree_of_mem_descendants hx hy)
  unfold Document.stringValue
  rw [hf.kind? x hx, htext]

/-! ## Document order -/

section Order

variable (hc : c.index < d.size)
include hc

/-- A node has the same distance from the top of its tree in both orders. -/
theorem exists_orderIndex_eq (hx : x ∈ d.tree c) :
    ∃ n, d.orderIndex x = d.orderIndex (d.top c) + n ∧
      d'.orderIndex (f x) = d'.orderIndex (f (d.top c)) + n := by
  have hpreorder := hf.preorder h h' h.top_mem_tree
  have hlt := h.top_lt_size hc
  have hmem : x ∈ d.preorder (d.top c) := h.mem_preorder.mpr (h.top_eq_iff.mp hx).2
  obtain ⟨n, hn, rfl⟩ := List.getElem_of_mem hmem
  have hn' : n < (d'.preorder (f (d.top c))).length := by rwa [hpreorder, List.length_map]
  refine ⟨n, h.orderIndex_getElem_preorder hlt hn, ?_⟩
  rw [← h'.orderIndex_getElem_preorder (hf.lt_size h.top_mem_tree hlt) hn']
  simp [hpreorder]

theorem before_iff (hx : x ∈ d.tree c) (hy : y ∈ d.tree c) :
    d'.Before (f x) (f y) ↔ d.Before x y := by
  obtain ⟨m, hm, hm'⟩ := hf.exists_orderIndex_eq h h' hc hx
  obtain ⟨n, hn, hn'⟩ := hf.exists_orderIndex_eq h h' hc hy
  unfold Before
  omega

theorem inOrder (hids : ∀ x ∈ ids, x ∈ d.tree c) :
    d'.inOrder (ids.map f) = (d.inOrder ids).map f := by
  have hlt : ∀ x ∈ ids, x.index < d.size := fun x hx => h.lt_size_of_top_eq hc (hids x hx)
  have hmem : ∀ x, x ∈ d.inOrder ids ↔ x ∈ ids := fun x =>
    h.mem_inOrder.trans (and_iff_left_of_imp (hlt x))
  rw [h'.inOrder_eq_iff]
  · refine ⟨?_, fun y => ?_⟩
    · rw [List.pairwise_map]
      refine h.pairwise_inOrder.imp_of_mem fun {x y} hx hy hxy => ?_
      exact (hf.before_iff h h' hc (hids x ((hmem x).mp hx)) (hids y ((hmem y).mp hy))).mpr hxy
    · simp only [List.mem_map, hmem]
  · intro y hy
    obtain ⟨x, hx, rfl⟩ := List.mem_map.mp hy
    exact hf.lt_size (hids x hx) (hlt x hx)

theorem first? (hids : ∀ x ∈ ids, x ∈ d.tree c) :
    d'.first? (ids.map f) = (d.first? ids).map f := by
  unfold Document.first?
  rw [← List.head?_filter, ← List.head?_filter]
  show (d'.inOrder (ids.map f)).head? = (d.inOrder ids).head?.map f
  rw [hf.inOrder h h' hc hids, List.head?_map]

end Order

/-! ## Axes -/

omit h' in
theorem followingSiblings (hx : x ∈ d.tree c) :
    d'.followingSiblings (f x) = (d.followingSiblings x).map f := by
  unfold Document.followingSiblings
  rw [hf.isAttribute hx, hf.parent? x hx]
  split
  · rfl
  cases hp : d.parent? x with
  | none => rfl
  | some p =>
    have hp' := h.mem_tree_of_isParent hx hp
    have hdrop : ((d.children p).map f).dropWhile (· != f x) =
        ((d.children p).dropWhile (· != x)).map f :=
      dropWhile_map_eq fun y hy => hf.bne_eq (h.mem_tree_of_mem_children hp' hy) hx
    simp only [Option.map_some, hf.children p hp', hdrop, List.map_drop]

omit h' in
theorem precedingSiblings (hx : x ∈ d.tree c) :
    d'.precedingSiblings (f x) = (d.precedingSiblings x).map f := by
  unfold Document.precedingSiblings
  rw [hf.isAttribute hx, hf.parent? x hx]
  split
  · rfl
  cases hp : d.parent? x with
  | none => rfl
  | some p =>
    have hp' := h.mem_tree_of_isParent hx hp
    have htake : ((d.children p).map f).takeWhile (· != f x) =
        ((d.children p).takeWhile (· != x)).map f :=
      takeWhile_map_eq fun y hy => hf.bne_eq (h.mem_tree_of_mem_children hp' hy) hx
    simp only [Option.map_some, hf.children p hp', htake, List.map_reverse]

theorem followingFrom (hx : x ∈ d.tree c) :
    d'.followingFrom (f x) = (d.followingFrom x).map f := by
  unfold Document.followingFrom
  rw [hf.ancestors h h' hx, ← List.map_cons]
  refine flatMap_map_eq_map fun y hy => ?_
  have hy' : y ∈ d.tree c :=
    h.mem_tree_of_mem_axis hx (show y ∈ Axis.ancestorOrSelf.nodes d x from hy)
  rw [hf.followingSiblings h hy']
  refine flatMap_map_eq_map fun z hz => hf.subtree h h' ?_
  exact h.mem_tree_of_mem_axis hy' (show z ∈ Axis.followingSibling.nodes d y from hz)

theorem precedingFrom (hx : x ∈ d.tree c) :
    d'.precedingFrom (f x) = (d.precedingFrom x).map f := by
  unfold Document.precedingFrom
  rw [hf.ancestors h h' hx, ← List.map_cons]
  refine flatMap_map_eq_map fun y hy => ?_
  have hy' : y ∈ d.tree c :=
    h.mem_tree_of_mem_axis hx (show y ∈ Axis.ancestorOrSelf.nodes d x from hy)
  rw [hf.precedingSiblings h hy']
  refine flatMap_map_eq_map fun z hz => ?_
  have hz' : z ∈ d.tree c :=
    h.mem_tree_of_mem_axis hy' (show z ∈ Axis.precedingSibling.nodes d y from hz)
  rw [hf.subtree h h' hz', List.map_reverse]

theorem following (hx : x ∈ d.tree c) : d'.following (f x) = (d.following x).map f := by
  unfold Document.following
  rw [hf.isAttribute hx, hf.parent? x hx]
  split
  · cases hp : d.parent? x with
    | none => rfl
    | some p =>
      have hp' := h.mem_tree_of_isParent hx hp
      simp only [Option.map_some, List.map_append]
      rw [hf.descendants h h' hp', hf.followingFrom h h' hp']
  · exact hf.followingFrom h h' hx

theorem preceding (hx : x ∈ d.tree c) : d'.preceding (f x) = (d.preceding x).map f := by
  unfold Document.preceding
  rw [hf.isAttribute hx, hf.parent? x hx]
  split
  · cases hp : d.parent? x with
    | none => rfl
    | some p => exact hf.precedingFrom h h' (h.mem_tree_of_isParent hx hp)
  · exact hf.precedingFrom h h' hx

theorem axis (hx : x ∈ d.tree c) (axis : Axis) :
    axis.nodes d' (f x) = (axis.nodes d x).map f := by
  cases axis with
  | child => exact hf.children x hx
  | descendantOrSelf => exact congrArg (f x :: ·) (hf.descendants h h' hx)
  | descendant => exact hf.descendants h h' hx
  | «attribute» => exact hf.attributes x hx
  | namespaceNode => rfl
  | parent =>
    show (d'.parent? (f x)).toList = (d.parent? x).toList.map f
    rw [hf.parent? x hx]
    cases d.parent? x <;> rfl
  | ancestorOrSelf => exact congrArg (f x :: ·) (hf.ancestors h h' hx)
  | ancestor => exact hf.ancestors h h' hx
  | self => rfl
  | followingSibling => exact hf.followingSiblings h hx
  | precedingSibling => exact hf.precedingSiblings h hx
  | following => exact hf.following h h' hx
  | preceding => exact hf.preceding h h' hx

end TreeIso

/-! ## A tree that is left alone -/

section Kept

variable (h : d.WellFormed) (h' : d'.WellFormed)
  (hkept : ∀ x ∈ d.tree c, d'.node? x = d.node? x)
include h h' hkept

theorem ancestors_of_kept (hx : x ∈ d.tree c) : d'.ancestors x = d.ancestors x := by
  have hparent : d'.parent? x = d.parent? x := by rw [parent?, parent?, hkept x hx]
  induction x using h.parent_induction with
  | top x hnone =>
    rw [h'.ancestors_of_parent?_eq_none (hparent.trans hnone), h.ancestors_of_parent?_eq_none hnone]
  | below p x hp ih =>
    have hp' := h.mem_tree_of_isParent hx hp
    rw [h'.ancestors_of_isParent (hparent.trans hp), h.ancestors_of_isParent hp,
      ih hp' (by rw [parent?, parent?, hkept p hp'])]

/-- Where the nodes of a tree are the same in two documents, the trees are the same. -/
theorem tree_of_kept : d'.tree c = d.tree c := by
  have htop : ∀ x ∈ d.tree c, d'.top x = d.top x := fun x hx => by
    rw [top, top, ancestors_of_kept h h' hkept hx]
  refine Set.Subset.antisymm (fun x hx => ?_) fun x hx => ?_
  · have hunder := (h'.top_eq_iff.mp hx).2
    rw [htop c mem_tree_self] at hunder
    induction hunder with
    | refl => exact h.top_mem_tree
    | @tail y z hy hz ih =>
      have hy' := ih ((h'.top_of_isParent hz).symm.trans hx)
      rcases (h'.linked y z).mpr hz with hz | hz
      · rw [children, hkept y hy'] at hz
        exact h.mem_tree_of_mem_children hy' hz
      · rw [attributes, hkept y hy'] at hz
        exact h.mem_tree_of_mem_attributes hy' hz
  · show d'.top x = d'.top c
    rw [htop x hx, htop c mem_tree_self]
    exact hx

theorem TreeIso.of_kept : d.TreeIso d' c c id where
  bijOn := by rw [tree_of_kept h h' hkept]; exact Set.bijOn_id _
  context := rfl
  kind? x hx := congrArg (Option.map Node.kind) (hkept x hx)
  parent? x hx := by
    rw [Option.map_id]
    exact congrArg (Option.bind · Node.parent) (hkept x hx)
  children x hx := by
    rw [List.map_id]
    exact congrArg (Option.elim · [] Node.children) (hkept x hx)
  attributes x hx := by
    rw [List.map_id]
    exact congrArg (Option.elim · [] Node.attributes) (hkept x hx)

end Kept
end XPath.Document
