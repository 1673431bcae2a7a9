import Mathlib.Data.List.Destutter
import Mathlib.Data.List.MinMax
import Mathlib.Data.List.Sort
import Mathlib.Data.Set.Function
import Mathlib.Order.Interval.Set.Defs
import XPath.Proofs.Document.Walk
/-! Document order against the structure of a well-formed document. The list `order` holds every
node once, and the tree below each node is a stretch of it; positions inside of that stretch are
positions in `preorder`. -/
namespace XPath.Document
set_option autoImplicit false

variable {d : Document} {a b p c t u x y id : NodeId} {ids l : List NodeId}

/-- Document order as a relation. -/
def Before (d : Document) (a b : NodeId) : Prop := d.orderIndex a < d.orderIndex b

instance : IsTrans NodeId d.Before := ⟨fun _ _ _ => Nat.lt_trans⟩

instance : Std.Irrefl d.Before := ⟨fun _ => Nat.lt_irrefl _⟩

instance : Std.Antisymm d.Before := ⟨fun _ _ hab hba => absurd hab (Nat.lt_asymm hba)⟩

/-! ## The members of the order -/

theorem mem_tops : t ∈ d.tops ↔ t.index < d.size ∧ d.parent? t = none := by
  rw [tops, List.mem_filter, mem_ids, Option.isNone_iff_eq_none]

theorem pairwise_tops (d : Document) : d.tops.Pairwise fun t u => t.index < u.index := by
  refine List.Pairwise.filter _ ?_
  rw [ids, List.pairwise_map]
  exact List.pairwise_lt_range

theorem nodup_tops (d : Document) : d.tops.Nodup := d.nodup_ids.filter _

namespace WellFormed

theorem mem_order (h : d.WellFormed) : x ∈ d.order ↔ x.index < d.size := by
  rw [order, List.mem_flatMap]
  constructor
  · rintro ⟨t, ht, hx⟩
    exact (h.mem_preorder.mp hx).lt_size (mem_tops.mp ht).1
  · intro hx
    exact ⟨d.top x, mem_tops.mpr ⟨h.top_lt_size hx, h.parent?_top⟩, h.mem_preorder.mpr h.under_top⟩

theorem nodup_order (h : d.WellFormed) : d.order.Nodup := by
  rw [order, List.nodup_flatMap]
  refine ⟨fun t _ => h.nodup_preorder, d.nodup_tops.imp_of_mem ?_⟩
  intro t u ht hu hne x hx hx'
  refine hne ?_
  rw [← h.top_eq_iff.mpr ⟨(mem_tops.mp ht).2, h.mem_preorder.mp hx⟩,
    h.top_eq_iff.mpr ⟨(mem_tops.mp hu).2, h.mem_preorder.mp hx'⟩]

theorem order_perm_ids (h : d.WellFormed) : d.order.Perm d.ids := by
  rw [List.perm_ext_iff_of_nodup h.nodup_order d.nodup_ids]
  intro x
  rw [h.mem_order, mem_ids]

theorem length_order (h : d.WellFormed) : d.order.length = d.size := by
  rw [h.order_perm_ids.length_eq, length_ids]

/-! ## Positions -/

theorem orderIndex_lt_size (h : d.WellFormed) (hx : x.index < d.size) :
    d.orderIndex x < d.size := by
  rw [orderIndex, ← h.length_order]
  exact List.idxOf_lt_length_iff.mpr (h.mem_order.mpr hx)

theorem orderIndex_inj (h : d.WellFormed) (ha : a.index < d.size) :
    d.orderIndex a = d.orderIndex b ↔ a = b := List.idxOf_inj (h.mem_order.mpr ha)

theorem orderIndex_getElem (h : d.WellFormed) {n : Nat} (hn : n < d.order.length) :
    d.orderIndex d.order[n] = n := h.nodup_order.idxOf_getElem n hn

theorem pairwise_order (h : d.WellFormed) : d.order.Pairwise d.Before := by
  rw [List.pairwise_iff_getElem]
  intro i j hi hj hij
  rwa [Before, h.orderIndex_getElem, h.orderIndex_getElem]

theorem preorder_infix_order (h : d.WellFormed) (hx : x.index < d.size) :
    d.preorder x <:+: d.order := by
  induction x using h.parent_induction with
  | top x hnone => exact List.infix_flatMap_of_mem (mem_tops.mpr ⟨hx, hnone⟩) _
  | below p x hp ih =>
    refine List.IsInfix.trans ?_ (ih (h.parent_lt_size hp))
    rw [h.preorder_eq (x := p)]
    rcases (h.linked p x).mpr hp with hc | ha
    · obtain ⟨s, r, hsr⟩ := List.infix_flatMap_of_mem hc d.preorder
      exact ⟨p :: (d.attributes p ++ s), r, by simp [← hsr]⟩
    · obtain ⟨s, r, hsr⟩ := List.append_of_mem ha
      rw [h.preorder_eq_of_isAttribute (h.isAttribute_of_mem_attributes ha), hsr]
      exact ⟨p :: s, r ++ (d.children p).flatMap d.preorder, by simp⟩

theorem pairwise_preorder (h : d.WellFormed) : (d.preorder x).Pairwise d.Before := by
  by_cases hx : x.index < d.size
  · exact h.pairwise_order.sublist (h.preorder_infix_order hx).sublist
  · -- Nothing hangs from an unknown node.
    have hnode : d.node? x = none := node?_eq_none_iff.mpr (Nat.le_of_not_lt hx)
    have hself : d.preorder x = [x] := by simp [h.preorder_eq, attributes, children, hnode]
    rw [hself]
    exact List.pairwise_singleton _ _

/-- Positions in the tree below a node count on from the position of the node. -/
theorem orderIndex_getElem_preorder (h : d.WellFormed) (hx : x.index < d.size) {n : Nat}
    (hn : n < (d.preorder x).length) : d.orderIndex (d.preorder x)[n] = d.orderIndex x + n := by
  obtain ⟨s, r, hsr⟩ := h.preorder_infix_order hx
  have hindex : ∀ (k : Nat) (hk : k < (d.preorder x).length),
      d.orderIndex (d.preorder x)[k] = s.length + k := by
    intro k hk
    have hlt : s.length + k < d.order.length := by
      rw [← hsr, List.length_append, List.length_append]
      omega
    rw [← h.orderIndex_getElem hlt]
    simp [← hsr, hk]
  have hpos : 0 < (d.preorder x).length := by rw [h.preorder_eq]; simp
  have hhead : (d.preorder x)[0] = x := by simp [h.preorder_eq (x := x)]
  have hstart := hindex 0 hpos
  rw [hhead] at hstart
  rw [hindex n hn, hstart, Nat.add_zero]

/-! ## The order of the structure -/

theorem before_of_isAncestor (h : d.WellFormed) (hax : d.IsAncestor a x) : d.Before a x := by
  have hpairwise := h.pairwise_preorder (x := a)
  rw [h.preorder_eq, List.pairwise_cons] at hpairwise
  refine hpairwise.1 x ?_
  have hmem := h.mem_preorder.mpr hax.under
  rw [h.preorder_eq, List.mem_cons] at hmem
  exact hmem.resolve_left fun e => h.not_isAncestor_self (e ▸ hax)

theorem orderIndex_attributes (h : d.WellFormed) {k : Nat} (hk : k < (d.attributes x).length) :
    d.orderIndex (d.attributes x)[k] = d.orderIndex x + 1 + k := by
  have hx := lt_size_of_mem_attributes (List.getElem_mem hk)
  have hlt : k + 1 < (d.preorder x).length := by
    rw [h.preorder_eq, List.length_cons, List.length_append]
    omega
  have hget : (d.preorder x)[k + 1] = (d.attributes x)[k] := by simp [h.preorder_eq (x := x), hk]
  rw [← hget, h.orderIndex_getElem_preorder hx]
  omega

/-- What hangs from the children comes after the node and its attributes. -/
theorem lt_orderIndex_of_under_child (h : d.WellFormed) (hc : c ∈ d.children x)
    (hcy : d.Under c y) : d.orderIndex x + (d.attributes x).length < d.orderIndex y := by
  have hx := lt_size_of_mem_children hc
  have hmem : y ∈ (d.children x).flatMap d.preorder :=
    List.mem_flatMap.mpr ⟨c, hc, h.mem_preorder.mpr hcy⟩
  obtain ⟨k, hk, rfl⟩ := List.getElem_of_mem hmem
  have hlt : k + (d.attributes x).length + 1 < (d.preorder x).length := by
    rw [h.preorder_eq, List.length_cons, List.length_append]
    omega
  have hget : (d.preorder x)[k + (d.attributes x).length + 1] =
      ((d.children x).flatMap d.preorder)[k] := by
    simp [h.preorder_eq (x := x)]
  rw [← hget, h.orderIndex_getElem_preorder hx]
  omega

theorem pairwise_children (h : d.WellFormed) : (d.children p).Pairwise fun a b =>
    ∀ x y, d.Under a x → d.Under b y → d.Before x y := by
  have hpairwise := h.pairwise_preorder (x := p)
  rw [h.preorder_eq, List.pairwise_cons, List.pairwise_append, List.pairwise_flatMap] at hpairwise
  refine hpairwise.2.2.1.2.imp fun {a b} hab x y hx hy => ?_
  exact hab x (h.mem_preorder.mpr hx) y (h.mem_preorder.mpr hy)

theorem image_orderIndex_under (h : d.WellFormed) (hx : x.index < d.size) :
    d.orderIndex '' {y | d.Under x y} =
      Set.Ico (d.orderIndex x) (d.orderIndex x + (d.preorder x).length) := by
  ext n
  rw [Set.mem_image, Set.mem_Ico]
  constructor
  · rintro ⟨y, hy, rfl⟩
    obtain ⟨k, hk, rfl⟩ := List.getElem_of_mem (h.mem_preorder.mpr hy)
    rw [h.orderIndex_getElem_preorder hx]
    omega
  · rintro ⟨hle, hlt⟩
    have hk : n - d.orderIndex x < (d.preorder x).length := by omega
    refine ⟨(d.preorder x)[n - d.orderIndex x], h.mem_preorder.mp (List.getElem_mem hk), ?_⟩
    rw [h.orderIndex_getElem_preorder hx]
    omega

/-- Trees follow one another by their tops. -/
theorem before_of_top_lt (h : d.WellFormed) (hx : x.index < d.size) (hy : y.index < d.size)
    (hlt : (d.top x).index < (d.top y).index) : d.Before x y := by
  have hpairwise := h.pairwise_order
  rw [order, List.pairwise_flatMap] at hpairwise
  obtain ⟨i, hi, hix⟩ := List.getElem_of_mem (mem_tops.mpr ⟨h.top_lt_size hx, h.parent?_top⟩)
  obtain ⟨j, hj, hjy⟩ := List.getElem_of_mem (mem_tops.mpr ⟨h.top_lt_size hy, h.parent?_top⟩)
  have hij : i < j := by
    rcases Nat.lt_trichotomy i j with hij | rfl | hji
    · exact hij
    · rw [← hix, ← hjy] at hlt
      omega
    · have := List.pairwise_iff_getElem.mp d.pairwise_tops j i hj hi hji
      rw [hix, hjy] at this
      omega
  refine List.pairwise_iff_getElem.mp hpairwise.2 i j hi hj hij x ?_ y ?_
  · rw [hix]
    exact h.mem_preorder.mpr h.under_top
  · rw [hjy]
    exact h.mem_preorder.mpr h.under_top

theorem top_of_under_root (h : d.WellFormed) (hx : d.Under root x) : d.top x = root :=
  h.top_eq_iff.mpr ⟨h.parent?_root, hx⟩

end WellFormed

/-- The pre-order of the structure, as a relation between positions. -/
structure IsDocumentOrder (d : Document) (position : NodeId → Nat) : Prop where
  bijOn : Set.BijOn position {id | id.index < d.size} {n | n < d.size}
  /-- Attributes stand directly behind their element, in the order of the list. -/
  attributes : ∀ id k (hk : k < (d.attributes id).length),
    position (d.attributes id)[k] = position id + 1 + k
  /-- What hangs from the children comes after the attributes. -/
  content : ∀ id c x, c ∈ d.children id → d.Under c x →
    position id + (d.attributes id).length < position x
  siblings : ∀ id, (d.children id).Pairwise fun a b =>
    ∀ x y, d.Under a x → d.Under b y → position x < position y
  /-- A node and all nodes below it fill an interval. -/
  interval : ∀ id, id.index < d.size →
    ∃ n, position '' {x | d.Under id x} = Set.Ico (position id) (position id + n)
  rooted : ∀ x y, d.Under root x → y.index < d.size → ¬ d.Under root y → position x < position y
  detached : ∀ x y, x.index < d.size → y.index < d.size →
    (d.top x).index < (d.top y).index → position x < position y

theorem WellFormed.isDocumentOrder (h : d.WellFormed) : d.IsDocumentOrder d.orderIndex where
  bijOn := by
    refine ⟨fun x hx => h.orderIndex_lt_size hx, fun x hx y _ hxy => ?_, fun n hn => ?_⟩
    · exact (h.orderIndex_inj hx).mp hxy
    · have hn' : n < d.order.length := by rwa [h.length_order]
      exact ⟨d.order[n], h.mem_order.mp (List.getElem_mem hn'), h.orderIndex_getElem hn'⟩
  attributes id k hk := h.orderIndex_attributes hk
  content id c x hc hx := h.lt_orderIndex_of_under_child hc hx
  siblings id := h.pairwise_children
  interval id hid := ⟨_, h.image_orderIndex_under hid⟩
  rooted x y hx hy hroot := by
    refine h.before_of_top_lt (hx.lt_size h.size_pos) hy ?_
    rw [h.top_of_under_root hx]
    refine Nat.pos_of_ne_zero fun hzero => hroot ?_
    have htop : d.top y = root := congrArg NodeId.mk hzero
    exact htop ▸ h.under_top
  detached x y hx hy hlt := h.before_of_top_lt hx hy hlt

/-- The order looks at the positions of the nodes of the document only. -/
theorem IsDocumentOrder.congr {position other : NodeId → Nat} (h : d.IsDocumentOrder position)
    (hwf : d.WellFormed) (heq : ∀ x, x.index < d.size → other x = position x) :
    d.IsDocumentOrder other where
  bijOn := h.bijOn.congr fun x hx => (heq x hx).symm
  attributes id k hk := by
    have hid := lt_size_of_mem_attributes (List.getElem_mem hk)
    have ha := (hwf.isParent_of_mem_attributes (List.getElem_mem hk)).lt_size
    rw [heq _ ha, heq id hid]
    exact h.attributes id k hk
  content id c x hc hx := by
    have hlt := (hwf.isParent_of_mem_children hc).lt_size
    rw [heq id (lt_size_of_mem_children hc), heq x (hx.lt_size hlt)]
    exact h.content id c x hc hx
  siblings id := by
    refine (h.siblings id).imp_of_mem fun {a b} ha hb hab x y hx hy => ?_
    have hxlt := hx.lt_size (hwf.isParent_of_mem_children ha).lt_size
    have hylt := hy.lt_size (hwf.isParent_of_mem_children hb).lt_size
    rw [heq x hxlt, heq y hylt]
    exact hab x y hx hy
  interval id hid := by
    obtain ⟨n, hn⟩ := h.interval id hid
    refine ⟨n, ?_⟩
    rw [heq id hid, ← hn]
    exact Set.image_congr fun x hx => heq x (Under.lt_size hx hid)
  rooted x y hx hy hroot := by
    rw [heq x (hx.lt_size hwf.size_pos), heq y hy]
    exact h.rooted x y hx hy hroot
  detached x y hx hy hlt := by
    rw [heq x hx, heq y hy]
    exact h.detached x y hx hy hlt

/-! ## Lists in document order -/

/-- The list holds the nodes with a property, in document order. -/
structure ListsForward (d : Document) (l : List NodeId) (P : NodeId → Prop) : Prop where
  pairwise : l.Pairwise d.Before
  mem_iff : ∀ x, x ∈ l ↔ P x

/-- The list holds the nodes with a property, in reverse document order. -/
structure ListsBackward (d : Document) (l : List NodeId) (P : NodeId → Prop) : Prop where
  pairwise : l.Pairwise fun x y => d.Before y x
  mem_iff : ∀ x, x ∈ l ↔ P x

/-- The first find in document order comes before all others. -/
theorem ListsForward.find?_eq_some_iff {P : NodeId → Prop} {test : NodeId → Bool}
    (h : d.ListsForward l P) :
    l.find? test = some x ↔
      (P x ∧ test x = true) ∧ ∀ y, P y → test y = true → y ≠ x → d.Before x y := by
  rw [List.find?_eq_some_iff_append]
  constructor
  · rintro ⟨hx, before, after, rfl, hbefore⟩
    obtain ⟨-, hafter, -⟩ := List.pairwise_append.mp h.pairwise
    refine ⟨⟨(h.mem_iff x).mp (by simp), hx⟩, fun y hy htest hne => ?_⟩
    rcases List.mem_append.mp ((h.mem_iff y).mpr hy) with hy | hy
    · have hfail := hbefore y hy
      rw [htest] at hfail
      cases hfail
    · rcases List.mem_cons.mp hy with rfl | hy
      · exact absurd rfl hne
      · exact (List.pairwise_cons.mp hafter).1 y hy
  · rintro ⟨⟨hx, htest⟩, hfirst⟩
    obtain ⟨before, after, rfl⟩ := List.append_of_mem ((h.mem_iff x).mpr hx)
    refine ⟨htest, before, after, rfl, fun y hy => ?_⟩
    -- Another find in front of the first would be both before and after it.
    have hyx : d.Before y x :=
      (List.pairwise_append.mp h.pairwise).2.2 y hy x List.mem_cons_self
    cases hy' : test y with
    | false => rfl
    | true =>
      have hne : y ≠ x := fun he => Nat.lt_irrefl _ (he ▸ hyx)
      have hPy := (h.mem_iff y).mp (List.mem_append_left _ hy)
      exact absurd (hfirst y hPy hy' hne) (Nat.lt_asymm hyx)

namespace WellFormed

theorem mem_inOrder (h : d.WellFormed) : x ∈ d.inOrder ids ↔ x ∈ ids ∧ x.index < d.size := by
  rw [inOrder, List.mem_filter, h.mem_order, List.contains_iff_mem, and_comm]

theorem pairwise_inOrder (h : d.WellFormed) : (d.inOrder ids).Pairwise d.Before :=
  h.pairwise_order.filter _

/-- A list in document order is known by its members. -/
theorem inOrder_eq_iff (h : d.WellFormed) (hids : ∀ x ∈ ids, x.index < d.size) :
    d.inOrder ids = l ↔ l.Pairwise d.Before ∧ ∀ x, x ∈ l ↔ x ∈ ids := by
  have hmem : ∀ x, x ∈ d.inOrder ids ↔ x ∈ ids := by
    intro x
    rw [h.mem_inOrder]
    exact and_iff_left_of_imp (hids x)
  constructor
  · rintro rfl
    exact ⟨h.pairwise_inOrder, hmem⟩
  · rintro ⟨hl, hiff⟩
    exact h.pairwise_inOrder.eq_of_mem_iff hl fun x => (hmem x).trans (hiff x).symm

end WellFormed

/-! ## The first of a list -/

theorem first?_eq_head? (d : Document) (ids : List NodeId) :
    d.first? ids = (d.inOrder ids).head? := by
  rw [first?, inOrder, List.head?_filter]

/-- The first member of a list comes before all others. -/
theorem WellFormed.first?_eq_some_iff (h : d.WellFormed) :
    d.first? ids = some x ↔ (x.index < d.size ∧ x ∈ ids) ∧
      ∀ y ∈ ids, y.index < d.size → y ≠ x → d.Before x y := by
  have hlist : d.ListsForward d.order (·.index < d.size) :=
    ⟨h.pairwise_order, fun _ => h.mem_order⟩
  rw [first?, hlist.find?_eq_some_iff]
  simp only [List.contains_iff_mem]
  exact and_congr_right fun _ => forall_congr' fun _ => forall_comm

/-- The member that has the least position is the first one. -/
theorem WellFormed.argmin_eq_first? {position : NodeId → Nat} (h : d.WellFormed)
    (hposition : ∀ x, x.index < d.size → position x = d.orderIndex x)
    (hids : ∀ x ∈ ids, x.index < d.size) : ids.argmin position = d.first? ids := by
  cases hmin : ids.argmin position with
  | none =>
    obtain rfl := List.argmin_eq_none.mp hmin
    rw [first?_eq_head?, inOrder, List.filter_eq_nil_iff.mpr (by simp)]
    rfl
  | some x =>
    obtain ⟨hx, hle, -⟩ := List.argmin_eq_some_iff.mp hmin
    refine (h.first?_eq_some_iff.mpr ⟨⟨hids x hx, hx⟩, fun y hy hlt hne => ?_⟩).symm
    have hxy := hle y hy
    rw [hposition x (hids x hx), hposition y hlt] at hxy
    exact Nat.lt_of_le_of_ne hxy fun heq => hne ((h.orderIndex_inj (hids x hx)).mp heq).symm

/-! ## Sorting -/

theorem mem_destutter'_ne : x ∈ l.destutter' (· ≠ ·) a ↔ x = a ∨ x ∈ l := by
  induction l generalizing a with
  | nil => simp
  | cons b l ih =>
    by_cases hab : a = b
    · rw [List.destutter'_cons_neg _ (not_not.mpr hab), ih, List.mem_cons, hab, ← or_assoc, or_self]
    · rw [List.destutter'_cons_pos _ hab, List.mem_cons, ih, List.mem_cons]

/-- Removing repetitions loses no member. -/
theorem mem_destutter_ne : x ∈ l.destutter (· ≠ ·) ↔ x ∈ l := by
  cases l with
  | nil => rfl
  | cons b l => rw [List.destutter_cons', mem_destutter'_ne, List.mem_cons]

/-- Sorting by position and removing repetitions gives the members in document order. -/
theorem WellFormed.destutter_mergeSort {position : NodeId → Nat} (h : d.WellFormed)
    (hposition : ∀ x, x.index < d.size → position x = d.orderIndex x)
    (hids : ∀ x ∈ ids, x.index < d.size) :
    (ids.mergeSort fun a b => position a ≤ position b).destutter (· ≠ ·) = d.inOrder ids := by
  symm
  set sorted := ids.mergeSort fun a b => position a ≤ position b
  have hperm : sorted.Perm ids := List.mergeSort_perm _ _
  have hle : (sorted.destutter (· ≠ ·)).Pairwise fun a b => position a ≤ position b := by
    refine List.Pairwise.sublist (List.destutter_sublist _ _) ?_
    have hpairwise : sorted.Pairwise fun a b => decide (position a ≤ position b) :=
      List.pairwise_mergeSort (by grind) (by grind) ids
    simpa only [decide_eq_true_eq] using hpairwise
  have hlt : ∀ x ∈ sorted.destutter (· ≠ ·), x.index < d.size := fun x hx =>
    hids x (hperm.mem_iff.mp (mem_destutter_ne.mp hx))
  rw [h.inOrder_eq_iff hids]
  refine ⟨List.isChain_iff_pairwise.mp (List.isChain_iff_getElem.mpr fun i hi => ?_), fun x => ?_⟩
  · have hne := List.isChain_iff_getElem.mp (List.isChain_destutter (· ≠ ·) sorted) i hi
    have hstep := List.pairwise_iff_getElem.mp hle i (i + 1) (by omega) hi (by omega)
    have ha := hlt _ (List.getElem_mem (Nat.lt_of_succ_lt hi))
    rw [hposition _ ha, hposition _ (hlt _ (List.getElem_mem hi))] at hstep
    exact Nat.lt_of_le_of_ne hstep fun heq => hne ((h.orderIndex_inj ha).mp heq)
  · rw [mem_destutter_ne, hperm.mem_iff]

end XPath.Document
