import XPath.Proofs.Document.Walk
/-! What an elementary change of links keeps. A document gets a node without links, or one node gets
another kind of the same sort, or one child or attribute is linked to a parent or unlinked from it.
Each of these changes is described by the four views of a document, and each leads from one
well-formed document to another. -/
namespace XPath
set_option autoImplicit false

/-- Kinds that play the same part in a tree. -/
def NodeKind.SameSort (a b : NodeKind) : Prop :=
  a.isElement = b.isElement ∧ a.isAttribute = b.isAttribute ∧ (a = .document ↔ b = .document)

namespace Document

variable {d d' : Document} {c p x id : NodeId} {r : Option NodeId} {l : List NodeId}

/-! ## Kinds -/

/-- Every node has the part it had, and there is no new document node. -/
structure KeepsKinds (d d' : Document) : Prop where
  sameSort : ∀ id kind, d.kind? id = some kind →
    ∃ kind', d'.kind? id = some kind' ∧ kind.SameSort kind'
  document : ∀ id, d'.kind? id = some .document → d.kind? id = some .document

namespace KeepsKinds

theorem of_eq (h : ∀ id, d'.kind? id = d.kind? id) : d.KeepsKinds d' where
  sameSort id kind hk := ⟨kind, (h id).trans hk, rfl, rfl, Iff.rfl⟩
  document id hk := (h id).symm.trans hk

theorem trans {e : Document} (h : d.KeepsKinds e) (h' : e.KeepsKinds d') : d.KeepsKinds d' where
  sameSort id kind hk := by
    obtain ⟨middle, hmiddle, hsame⟩ := h.sameSort id kind hk
    obtain ⟨kind', hk', hsame'⟩ := h'.sameSort id middle hmiddle
    exact ⟨kind', hk', hsame.1.trans hsame'.1, hsame.2.1.trans hsame'.2.1,
      hsame.2.2.trans hsame'.2.2⟩
  document id hk := h.document id (h'.document id hk)

theorem isElement (h : d.KeepsKinds d') (hid : d.isElement id) : d'.isElement id := by
  unfold Document.isElement at hid ⊢
  cases hk : d.kind? id with
  | none => simp [hk] at hid
  | some kind =>
    obtain ⟨kind', hk', hsame, -, -⟩ := h.sameSort id kind hk
    rw [hk', Option.any_some, ← hsame]
    rwa [hk] at hid

theorem isAttribute (h : d.KeepsKinds d') (hid : d.isAttribute id) : d'.isAttribute id := by
  unfold Document.isAttribute at hid ⊢
  cases hk : d.kind? id with
  | none => simp [hk] at hid
  | some kind =>
    obtain ⟨kind', hk', -, hsame, -⟩ := h.sameSort id kind hk
    rw [hk', Option.any_some, ← hsame]
    rwa [hk] at hid

theorem kind?_eq_document_iff (h : d.KeepsKinds d') :
    d'.kind? id = some .document ↔ d.kind? id = some .document := by
  refine ⟨h.document id, fun hk => ?_⟩
  obtain ⟨kind', hk', -, -, hdoc⟩ := h.sameSort id .document hk
  rw [hk', hdoc.mp rfl]

theorem isContainer (h : d.KeepsKinds d') (hid : d.isContainer id) : d'.isContainer id := by
  rw [isContainer_iff] at hid ⊢
  exact hid.imp h.kind?_eq_document_iff.mpr h.isElement

theorem isInsertable (h : d.KeepsKinds d') (hid : d.isInsertable id) : d'.isInsertable id := by
  unfold Document.isInsertable at hid ⊢
  cases hk : d.kind? id with
  | none => simp [hk] at hid
  | some kind =>
    obtain ⟨kind', hk', -, hattr, hdoc⟩ := h.sameSort id kind hk
    rw [hk] at hid
    rw [hk', Option.any_some]
    simp only [Option.any_some, Bool.and_eq_true, bne_iff_ne, ne_eq, Bool.not_eq_true'] at hid ⊢
    exact ⟨fun he => hid.1 (hdoc.mpr he), hattr ▸ hid.2⟩

end KeepsKinds

theorem keepsKinds_create {kind : NodeKind} (hkind : kind ≠ .document) :
    d.KeepsKinds (d.create kind).1 where
  sameSort id old hk := by
    refine ⟨old, ?_, rfl, rfl, Iff.rfl⟩
    rw [kind?_create, if_neg (Nat.ne_of_lt (lt_size_of_kind? hk)), hk]
  document id hk := by
    rw [kind?_create] at hk
    split at hk
    · exact absurd (Option.some.inj hk) hkind
    · exact hk

theorem keepsKinds_update_kind {old kind : NodeKind} (hid : d.kind? id = some old)
    (hsame : old.SameSort kind) :
    d.KeepsKinds (d.update id fun node => { node with kind := kind }) := by
  have hview := fun x => kind?_update_kind (d := d) (x := x) kind (lt_size_of_kind? hid)
  constructor
  · intro x k hk
    rw [hview x]
    split
    · next hx =>
      rw [hx, hid] at hk
      exact ⟨kind, rfl, Option.some.inj hk ▸ hsame⟩
    · exact ⟨k, hk, rfl, rfl, Iff.rfl⟩
  · intro x hk
    rw [hview x] at hk
    split at hk
    · next hx => rw [hx, hid, hsame.2.2.mpr (Option.some.inj hk)]
    · exact hk

/-! ## Links -/

/-- From `d` to `d'`, the parent of `c` becomes `r`, and every other node keeps its own. -/
def Reparents (d d' : Document) (c : NodeId) (r : Option NodeId) : Prop :=
  ∀ x, d'.parent? x = if x = c then r else d.parent? x

/-- A node that is not above `p` may become a child of it without closing a cycle. -/
theorem Reparents.grounded (hd : WellFounded d.IsParent) (hc : ¬ d.Under c p)
    (hp : d.Reparents d' c (some p)) : WellFounded d'.IsParent := by
  have hne : ∀ {x y}, y ≠ c → d'.IsParent x y → d.IsParent x y := by
    intro x y hy hxy
    unfold IsParent at hxy
    rwa [hp y, if_neg hy] at hxy
  -- First the nodes outside the tree that hangs from `c`, whose chains have not changed.
  have outside : ∀ x, ¬ d.Under c x → Acc d'.IsParent x := by
    intro x
    induction x using hd.induction with
    | h x ih =>
      intro hx
      refine Acc.intro x fun y hyx => ?_
      have hxc : x ≠ c := fun he => hx (he ▸ Relation.ReflTransGen.refl)
      exact ih y (hne hxc hyx) fun hcy => hx (hcy.tail (hne hxc hyx))
  have hcAcc : Acc d'.IsParent c := by
    refine Acc.intro c fun y hyc => ?_
    unfold IsParent at hyc
    rw [hp c, if_pos rfl] at hyc
    exact Option.some.inj hyc ▸ outside p hc
  refine ⟨fun x => ?_⟩
  induction x using hd.induction with
  | h x ih =>
    by_cases hxc : x = c
    · exact hxc ▸ hcAcc
    · exact Acc.intro x fun y hyx => ih y (hne hxc hyx)

theorem Reparents.grounded_none (hd : WellFounded d.IsParent) (hp : d.Reparents d' c none) :
    WellFounded d'.IsParent := by
  refine Subrelation.wf (fun {x y} hxy => ?_) hd
  unfold IsParent at hxy ⊢
  rw [hp y] at hxy
  split at hxy
  · cases hxy
  · exact hxy

namespace WellFormed

theorem of_eq_links (h : d.WellFormed) (hk : d.KeepsKinds d') (hp : ∀ x, d'.parent? x = d.parent? x)
    (hc : ∀ x, d'.children x = d.children x) (ha : ∀ x, d'.attributes x = d.attributes x) :
    d'.WellFormed where
  linked p c := by
    unfold IsParent
    rw [hc, ha, hp]
    exact h.linked p c
  nodup_children p := by rw [hc]; exact h.nodup_children p
  nodup_attributes p := by rw [ha]; exact h.nodup_attributes p
  of_mem_children p id hid := by
    rw [hc] at hid
    exact (h.of_mem_children p id hid).imp hk.isContainer hk.isInsertable
  of_mem_attributes p id hid := by
    rw [ha] at hid
    exact (h.of_mem_attributes p id hid).imp hk.isElement hk.isAttribute
  kind?_root id := by rw [hk.kind?_eq_document_iff, h.kind?_root]
  grounded := by
    have he : d'.IsParent = d.IsParent := by
      funext p c
      unfold IsParent
      rw [hp]
    exact he ▸ h.grounded

/-- Only `c` has changed its place. -/
theorem of_reparents (h : d.WellFormed) (hk : d.KeepsKinds d') (hp : d.Reparents d' c r)
    (hg : WellFounded d'.IsParent)
    (hchildren : ∀ x, (d'.children x).Nodup ∧ ∀ y, y ≠ c → (y ∈ d'.children x ↔ y ∈ d.children x))
    (hattributes : ∀ x,
      (d'.attributes x).Nodup ∧ ∀ y, y ≠ c → (y ∈ d'.attributes x ↔ y ∈ d.attributes x))
    (hc : ∀ x, c ∈ d'.children x ∨ c ∈ d'.attributes x ↔ r = some x)
    (hchild : ∀ x, c ∈ d'.children x → d.isContainer x ∧ d.isInsertable c)
    (hattribute : ∀ x, c ∈ d'.attributes x → d.isElement x ∧ d.isAttribute c) :
    d'.WellFormed where
  linked q x := by
    unfold IsParent
    rw [hp x]
    by_cases hx : x = c
    · rw [if_pos hx, hx]
      exact hc q
    · rw [if_neg hx, (hchildren q).2 x hx, (hattributes q).2 x hx]
      exact h.linked q x
  nodup_children q := (hchildren q).1
  nodup_attributes q := (hattributes q).1
  of_mem_children q x hx := by
    by_cases hxc : x = c
    · subst hxc
      exact (hchild q hx).imp hk.isContainer hk.isInsertable
    · exact (h.of_mem_children q x (((hchildren q).2 x hxc).mp hx)).imp hk.isContainer
        hk.isInsertable
  of_mem_attributes q x hx := by
    by_cases hxc : x = c
    · subst hxc
      exact (hattribute q hx).imp hk.isElement hk.isAttribute
    · exact (h.of_mem_attributes q x (((hattributes q).2 x hxc).mp hx)).imp hk.isElement
        hk.isAttribute
  kind?_root id := by rw [hk.kind?_eq_document_iff, h.kind?_root]
  grounded := hg

theorem not_mem_of_parent?_eq_none (h : d.WellFormed) (hc : d.parent? c = none) :
    c ∉ d.children x ∧ c ∉ d.attributes x := by
  rw [← not_or, h.linked]
  intro hx
  exact absurd (hc.symm.trans hx) (by simp)

/-- A node without a parent becomes a child. -/
theorem of_child_added (h : d.WellFormed) (hk : d.KeepsKinds d')
    (hp : d.Reparents d' c (some p)) (hc : ∀ x, d'.children x = if x = p then l else d.children x)
    (ha : ∀ x, d'.attributes x = d.attributes x) (hl : l.Perm (c :: d.children p))
    (hnone : d.parent? c = none) (hcontainer : d.isContainer p) (hinsertable : d.isInsertable c)
    (hunder : ¬ d.Under c p) : d'.WellFormed := by
  have hout : ∀ x, c ∉ d.children x ∧ c ∉ d.attributes x := fun x =>
    h.not_mem_of_parent?_eq_none hnone
  have hmem : ∀ x, c ∈ d'.children x ↔ x = p := by
    intro x
    rw [hc]
    split
    · next hx => simp [hl.mem_iff, hx]
    · next hx => simp [hx, (hout x).1]
  refine h.of_reparents hk hp (hp.grounded h.grounded hunder) (fun x => ?_) (fun x => ?_)
    (fun x => ?_) (fun x hx => ?_) (fun x hx => ?_)
  · rw [hc]
    split
    · next hx =>
      subst hx
      refine ⟨hl.nodup_iff.mpr (List.nodup_cons.mpr ⟨(hout x).1, h.nodup_children x⟩), ?_⟩
      intro y hy
      simp [hl.mem_iff, hy]
    · exact ⟨h.nodup_children x, fun y _ => Iff.rfl⟩
  · rw [ha]
    exact ⟨h.nodup_attributes x, fun y _ => Iff.rfl⟩
  · rw [hmem, ha, or_iff_left (hout x).2, Option.some.injEq, eq_comm]
  · rw [(hmem x).mp hx]
    exact ⟨hcontainer, hinsertable⟩
  · rw [ha] at hx
    exact absurd hx (hout x).2

/-- A node without a parent becomes an attribute. -/
theorem of_attribute_added (h : d.WellFormed) (hk : d.KeepsKinds d')
    (hp : d.Reparents d' c (some p)) (hc : ∀ x, d'.children x = d.children x)
    (ha : ∀ x, d'.attributes x = if x = p then d.attributes p ++ [c] else d.attributes x)
    (hnone : d.parent? c = none) (helement : d.isElement p) (hattribute : d.isAttribute c) :
    d'.WellFormed := by
  have hout : ∀ x, c ∉ d.children x ∧ c ∉ d.attributes x := fun x =>
    h.not_mem_of_parent?_eq_none hnone
  have hmem : ∀ x, c ∈ d'.attributes x ↔ x = p := by
    intro x
    rw [ha]
    split
    · next hx => simp [hx]
    · next hx => simp [hx, (hout x).2]
  have hunder : ¬ d.Under c p := by
    rw [h.under_iff_of_isAttribute hattribute]
    rintro rfl
    have := isAttribute_eq_false_of_isContainer (isContainer_of_isElement helement)
    rw [hattribute] at this
    cases this
  refine h.of_reparents hk hp (hp.grounded h.grounded hunder) (fun x => ?_) (fun x => ?_)
    (fun x => ?_) (fun x hx => ?_) (fun x hx => ?_)
  · rw [hc]
    exact ⟨h.nodup_children x, fun y _ => Iff.rfl⟩
  · rw [ha]
    split
    · next hx =>
      subst hx
      refine ⟨?_, fun y hy => by simp [hy]⟩
      exact List.nodup_append_comm.mp (List.nodup_cons.mpr ⟨(hout x).2, h.nodup_attributes x⟩)
    · exact ⟨h.nodup_attributes x, fun y _ => Iff.rfl⟩
  · rw [hmem, hc, or_iff_right (hout x).1, Option.some.injEq, eq_comm]
  · rw [hc] at hx
    exact absurd hx (hout x).1
  · rw [(hmem x).mp hx]
    exact ⟨helement, hattribute⟩

/-- A child or attribute of `p` loses its parent and its place in the list. -/
theorem of_removed (h : d.WellFormed) (hk : d.KeepsKinds d') (hp : d.Reparents d' c none)
    (hpc : d.IsParent p c)
    (hc : ∀ x, d'.children x = if x = p then (d.children p).filter (· != c) else d.children x)
    (ha : ∀ x, d'.attributes x =
      if x = p then (d.attributes p).filter (· != c) else d.attributes x) :
    d'.WellFormed := by
  have hother : ∀ x, x ≠ p → c ∉ d.children x ∧ c ∉ d.attributes x := by
    intro x hx
    rw [← not_or, h.linked]
    exact fun hxc => hx (hxc.unique hpc)
  have hmem : ∀ x, c ∉ d'.children x ∧ c ∉ d'.attributes x := by
    intro x
    rw [hc, ha]
    split
    · simp
    · next hx => exact hother x hx
  refine h.of_reparents hk hp (hp.grounded_none h.grounded) (fun x => ?_) (fun x => ?_)
    (fun x => ?_) (fun x hx => absurd hx (hmem x).1) (fun x hx => absurd hx (hmem x).2)
  · rw [hc]
    split
    · next hx =>
      subst hx
      exact ⟨(h.nodup_children x).filter _, fun y hy => by simp [hy]⟩
    · exact ⟨h.nodup_children x, fun y _ => Iff.rfl⟩
  · rw [ha]
    split
    · next hx =>
      subst hx
      exact ⟨(h.nodup_attributes x).filter _, fun y hy => by simp [hy]⟩
    · exact ⟨h.nodup_attributes x, fun y _ => Iff.rfl⟩
  · simp [hmem x]

end WellFormed
end Document
end XPath
