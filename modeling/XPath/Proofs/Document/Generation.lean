import XPath.Proofs.Document.Order
import XPath.Proofs.Document.Reachable
/-! What the count of changes tells. Edits that are not counted add at most nodes without links, so
all links stay as they are, and with them everything that is read off the links alone: the order of
the old nodes goes on into an order of all nodes. -/
namespace XPath.Document
set_option autoImplicit false

variable {d d' : Document} {p c id : NodeId} {r : Option NodeId}

/-! ## The counts after elementary changes -/

@[simp] theorem generation_update (f : Node → Node) :
    (d.update id f).generation = d.generation := rfl

@[simp] theorem generation_changed : d.changed.generation = d.generation + 1 := rfl

@[simp] theorem generation_detach : (d.detach c).generation = d.generation := by
  unfold detach
  split <;> rfl

@[simp] theorem generation_attach : (d.attach p c r).generation = d.generation := rfl

/-! ## The same links -/

/-- The nodes of the first document are linked in the second as they were, and nodes that are new
there have no links; what nodes are and hold may differ. -/
structure SameLinks (d d' : Document) : Prop where
  size_le : d.size ≤ d'.size
  parent? : ∀ x, d'.parent? x = d.parent? x
  children : ∀ x, d'.children x = d.children x
  attributes : ∀ x, d'.attributes x = d.attributes x

namespace SameLinks

theorem refl (d : Document) : d.SameLinks d :=
  ⟨Nat.le_refl _, fun _ => rfl, fun _ => rfl, fun _ => rfl⟩

theorem trans {e : Document} (h : d.SameLinks e) (h' : e.SameLinks d') : d.SameLinks d' where
  size_le := h.size_le.trans h'.size_le
  parent? x := (h'.parent? x).trans (h.parent? x)
  children x := (h'.children x).trans (h.children x)
  attributes x := (h'.attributes x).trans (h.attributes x)

theorem preorder (h : d.SameLinks d') (hwf : d.WellFormed) (hwf' : d'.WellFormed) :
    d'.preorder = d.preorder := by
  funext x
  exact hwf.preorder_eq_of_under hwf' fun y _ => ⟨h.children y, h.attributes y⟩

theorem tops_prefix (h : d.SameLinks d') : d.tops <+: d'.tops := by
  have hids : d.ids <+: d'.ids := by
    refine List.IsPrefix.map _ ?_
    rw [List.prefix_iff_eq_take, List.length_range, List.take_range, min_eq_left h.size_le]
  simp only [tops, h.parent?]
  exact hids.filter _

/-- New nodes come behind all others. -/
theorem order_prefix (h : d.SameLinks d') (hwf : d.WellFormed) (hwf' : d'.WellFormed) :
    d.order <+: d'.order := by
  obtain ⟨added, htops⟩ := h.tops_prefix
  rw [order, order, ← htops, List.flatMap_append, h.preorder hwf hwf']
  exact List.prefix_append _ _

theorem order (h : d.SameLinks d') (hwf : d.WellFormed) (hwf' : d'.WellFormed)
    (hsize : d'.size = d.size) : d'.order = d.order := by
  refine ((h.order_prefix hwf hwf').eq_of_length ?_).symm
  rw [hwf.length_order, hwf'.length_order, hsize]

theorem orderIndex (h : d.SameLinks d') (hwf : d.WellFormed) (hwf' : d'.WellFormed)
    (hid : id.index < d.size) : d'.orderIndex id = d.orderIndex id := by
  obtain ⟨added, horder⟩ := h.order_prefix hwf hwf'
  rw [Document.orderIndex, ← horder, List.idxOf_append_of_mem (hwf.mem_order.mpr hid)]
  rfl

end SameLinks

theorem sameLinks_create (kind : NodeKind) : d.SameLinks (d.create kind).1 :=
  ⟨by simp, fun _ => parent?_create, fun _ => children_create, fun _ => attributes_create⟩

theorem sameLinks_update_kind (kind : NodeKind) :
    d.SameLinks (d.update id fun node => { node with kind := kind }) :=
  ⟨(size_update _).ge, fun _ => parent?_update_kind, fun _ => children_update_kind,
    fun _ => attributes_update_kind⟩

/-! ## One edit -/

/-- An edit is counted once, or it is not counted and leaves all links as they are. -/
theorem EditStep.counted (hs : d.EditStep d') :
    d'.generation = d.generation + 1 ∨ d'.generation = d.generation ∧ d.SameLinks d' := by
  cases hs with
  | nothing => exact Or.inr ⟨rfl, .refl d⟩
  | create _ _ => exact Or.inr ⟨rfl, sameLinks_create _⟩
  | move _ _ _ => exact Or.inl (by simp)
  | removeChild _ => exact Or.inl (by simp)
  | setValue _ => exact Or.inr ⟨rfl, sameLinks_update_kind _⟩
  | addAttribute _ _ => exact Or.inl rfl
  | removeAttribute _ => exact Or.inl rfl
  | setData _ _ => exact Or.inr ⟨rfl, sameLinks_update_kind _⟩

theorem WellFormed.sameLinks_after (h : d.WellFormed) (edit : Edit)
    (hgeneration : (edit.after d).generation = d.generation) : d.SameLinks (edit.after d) := by
  rcases (h.editStep_after edit).counted with hcounted | ⟨-, hlinks⟩
  · omega
  · exact hlinks

theorem WellFormed.generation_le_after (h : d.WellFormed) (edit : Edit) :
    d.generation ≤ (edit.after d).generation ∧
      (edit.after d).generation ≤ d.generation + 1 := by
  rcases (h.editStep_after edit).counted with hcounted | ⟨hsame, -⟩ <;> omega

/-! ## Any number of edits -/

theorem Reachable.generation_le_afterAll (h : d.Reachable) (edits : List Edit) :
    d.generation ≤ (Edit.afterAll d edits).generation := by
  induction edits generalizing d with
  | nil => exact Nat.le_refl _
  | cons edit rest ih =>
    exact (h.wellFormed.generation_le_after edit).1.trans (ih (h.edited edit))

/-- The count never falls, so one that is the same at the end was the same after every edit. -/
theorem Reachable.sameLinks_afterAll (h : d.Reachable) {edits : List Edit}
    (hgeneration : (Edit.afterAll d edits).generation = d.generation) :
    d.SameLinks (Edit.afterAll d edits) := by
  induction edits generalizing d with
  | nil => exact .refl d
  | cons edit rest ih =>
    have hfirst := (h.wellFormed.generation_le_after edit).1
    have hrest : (edit.after d).generation ≤ (Edit.afterAll d (edit :: rest)).generation :=
      (h.edited edit).generation_le_afterAll rest
    have hsame : (edit.after d).generation = d.generation := by omega
    exact (h.wellFormed.sameLinks_after edit hsame).trans
      (ih (h.edited edit) (hgeneration.trans hsame.symm))

end XPath.Document
