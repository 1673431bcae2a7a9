import XPath.Document.Numbering
import XPath.Proofs.Document.Generation
import XPath.Proofs.Document.Order
/-! The table of positions. The walk that makes it numbers the nodes in document order, and a table
that is kept while a document is edited stays the one that would be made anew. -/
namespace XPath
set_option autoImplicit false

/-! ## Giving numbers -/

namespace Numbering

variable {n : Numbering} {x : NodeId} {l : List NodeId}

@[simp] theorem size_give : (n.give x).table.size = n.table.size := by simp [give]

theorem getElem?_give {a : NodeId} (hx : x.index < n.table.size) :
    (n.give a).table[x.index]? = if x = a then some n.next else n.table[x.index]? := by
  unfold give
  rw [Array.getElem?_setIfInBounds]
  by_cases hxa : x = a
  · rw [if_pos hxa, hxa, if_pos rfl, if_pos (hxa ▸ hx)]
  · have hne : a.index ≠ x.index := fun he => hxa (congrArg NodeId.mk he.symm)
    rw [if_neg hxa, if_neg hne]

/-- The members of a list get consecutive numbers. -/
theorem getElem?_foldl_give (hl : l.Nodup) (hx : x.index < n.table.size) :
    (l.foldl give n).table[x.index]? =
      if x ∈ l then some (n.next + l.idxOf x) else n.table[x.index]? := by
  induction l generalizing n with
  | nil => rfl
  | cons a l ih =>
    obtain ⟨ha, hl⟩ := List.nodup_cons.mp hl
    rw [List.foldl_cons, ih hl (by rwa [size_give]), getElem?_give hx]
    by_cases hxa : x = a
    · rw [if_neg (hxa ▸ ha), if_pos hxa, if_pos (by simp [hxa]), hxa, List.idxOf_cons_self,
        Nat.add_zero]
    · rw [if_neg hxa, List.idxOf_cons_ne _ (Ne.symm hxa)]
      have hmem : x ∈ a :: l ↔ x ∈ l := by simp [hxa]
      simp only [hmem]
      split
      · show some (n.next + 1 + l.idxOf x) = some (n.next + (l.idxOf x + 1))
        congr 1
        omega
      · rfl

end Numbering

/-! ## The walk with a stack -/

namespace Document

variable {d : Document} {x : NodeId} {n : Numbering} {stack : List NodeId}

namespace WellFormed

/-- What is on the stack is numbered in the order of the structure, if there are enough steps. Each
step takes one node of the trees that are still to be numbered. -/
theorem numberFrom_eq (h : d.WellFormed) {steps : Nat}
    (hsteps : (stack.flatMap d.subtree).length ≤ steps) :
    d.numberFrom steps n stack = (stack.flatMap d.preorder).foldl Numbering.give n := by
  induction steps generalizing n stack with
  | zero =>
    cases stack with
    | nil => rfl
    | cons x stack => simp [h.subtree_eq] at hsteps
  | succ steps ih =>
    cases stack with
    | nil => rfl
    | cons x stack =>
      rw [h.flatMap_subtree_cons, List.length_cons] at hsteps
      have hrest : ((d.children x ++ stack).flatMap d.subtree).length ≤ steps := by omega
      rw [numberFrom, ih hrest, List.flatMap_cons, h.preorder_eq, List.flatMap_append]
      simp only [List.cons_append, List.foldl_cons, List.foldl_append]

theorem positions_eq (h : d.WellFormed) :
    d.positions = (d.order.foldl Numbering.give ⟨Array.replicate d.size 0, 0⟩).table := by
  have key : ∀ (tops : List NodeId) (n : Numbering),
      tops.foldl (fun n top => d.numberFrom d.size n [top]) n =
        (tops.flatMap d.preorder).foldl Numbering.give n := by
    intro tops
    induction tops with
    | nil => exact fun _ => rfl
    | cons t tops ih =>
      intro n
      rw [List.foldl_cons, h.numberFrom_eq h.length_flatMap_subtree_singleton_le,
        List.flatMap_singleton, List.flatMap_cons, List.foldl_append]
      exact ih _
  unfold positions
  simp only [key, order]

/-- The walk gives every node its position in document order. -/
theorem getElem?_positions (h : d.WellFormed) (hx : x.index < d.size) :
    d.positions[x.index]? = some (d.orderIndex x) := by
  have hlt : x.index < (Array.replicate d.size 0).size := by rwa [Array.size_replicate]
  rw [h.positions_eq, Numbering.getElem?_foldl_give h.nodup_order hlt,
    if_pos (h.mem_order.mpr hx), Nat.zero_add, orderIndex]

theorem positions_of_sameLinks {d' : Document} (h : d.WellFormed) (h' : d'.WellFormed)
    (hlinks : d.SameLinks d') (hsize : d'.size = d.size) : d'.positions = d.positions := by
  rw [h.positions_eq, h'.positions_eq, hlinks.order h h' hsize, hsize]

end WellFormed
end Document

/-! ## A table that is kept -/

namespace IndexedDocument

open Document

variable {x : IndexedDocument} {id : NodeId}

/-- The document can be had, and the table is the one that would be made for it now. -/
structure Current (x : IndexedDocument) : Prop where
  reachable : x.document.Reachable
  table : ∀ table, x.table = some table → table = x.document.positions

theorem Current.edit (h : x.Current) (edit : Edit) : (x.edit edit).Current := by
  unfold IndexedDocument.edit advance
  split
  · next hsame =>
    refine ⟨h.reachable.edited edit, fun table htable => ?_⟩
    have hlinks := h.reachable.wellFormed.sameLinks_after edit hsame.2
    rw [h.table table htable]
    exact (h.reachable.wellFormed.positions_of_sameLinks (h.reachable.edited edit).wellFormed
      hlinks hsame.1).symm
  · exact ⟨h.reachable.edited edit, fun table htable => by cases htable⟩

theorem Current.number (h : x.Current) : x.number.Current := by
  refine ⟨h.reachable, fun table htable => ?_⟩
  obtain rfl := Option.some.inj htable
  cases hx : x.table with
  | none => rfl
  | some old => exact h.table old hx

theorem Reachable.current (h : x.Reachable) : x.Current := by
  induction h with
  | start hd => exact ⟨hd, fun table htable => by cases htable⟩
  | edited edit _ ih => exact ih.edit edit
  | asked _ ih => exact ih.number

theorem Current.getD_table (h : x.Current) :
    x.table.getD x.document.positions = x.document.positions := by
  cases hx : x.table with
  | none => rfl
  | some table => exact h.table table hx

theorem Current.position_eq (h : x.Current) (hid : id.index < x.document.size) :
    x.position id = x.document.orderIndex id := by
  unfold position
  rw [h.getD_table]
  simp only [h.reachable.wellFormed.getElem?_positions hid, Option.getD_some]

/-- However edits and questions alternate, the first member of a list is the one whose position is
least at the time of the question. -/
theorem Reachable.argmin_position (h : x.Reachable) {ids : List NodeId}
    (hids : ∀ id ∈ ids, id.index < x.document.size) :
    ids.argmin x.position = x.document.first? ids :=
  h.current.reachable.wellFormed.argmin_eq_first? (fun _ hid => h.current.position_eq hid) hids

/-- However edits and questions alternate, the positions are those of the structure as it is at the
time of the question; comparing positions tells all nodes apart, and sorting by them loses none. -/
theorem Reachable.position_spec (h : x.Reachable) :
    x.document.IsDocumentOrder x.position ∧
    (∀ a b, a.index < x.document.size → b.index < x.document.size →
      (x.order a b = .eq ↔ a = b)) ∧
    ∀ ids, (∀ id ∈ ids, id.index < x.document.size) →
      (ids.mergeSort fun a b => x.position a ≤ x.position b).destutter (· ≠ ·) =
          x.document.inOrder ids ∧
        (x.document.inOrder ids).Pairwise (fun a b => x.position a < x.position b) ∧
        ∀ id, id ∈ x.document.inOrder ids ↔ id ∈ ids := by
  have hcurrent := h.current
  have hwf := hcurrent.reachable.wellFormed
  have hposition : ∀ id, id.index < x.document.size → x.position id = x.document.orderIndex id :=
    fun id hid => hcurrent.position_eq hid
  refine ⟨hwf.isDocumentOrder.congr hwf hposition, fun a b ha hb => ?_, fun ids hids => ?_⟩
  · rw [order, Nat.compare_eq_eq, hposition a ha, hposition b hb, hwf.orderIndex_inj ha]
  · have hmem : ∀ id, id ∈ x.document.inOrder ids ↔ id ∈ ids ∧ id.index < x.document.size :=
      fun id => hwf.mem_inOrder
    refine ⟨hwf.destutter_mergeSort hposition hids, ?_, fun id => ?_⟩
    · refine hwf.pairwise_inOrder.imp_of_mem fun {a b} ha hb hab => ?_
      rw [hposition a ((hmem a).mp ha).2, hposition b ((hmem b).mp hb).2]
      exact hab
    · rw [hmem, and_iff_left_of_imp (hids id)]

/-- An attribute added last still comes before the text, also where positions were asked before. -/
theorem position_spec_of_late_attribute :
    let old := (((ofDocument .empty).edit (.createElement "a" none)).edit (.createText "t")).number
    let x := ((old.edit (.appendChild root ⟨1⟩)).number.edit (.appendChild ⟨1⟩ ⟨2⟩)).number.edit
      (.setAttribute ⟨1⟩ "k" none "v")
    x.Reachable ∧ (x.document.children ⟨1⟩ = [⟨2⟩] ∧ x.document.attributes ⟨1⟩ = [⟨3⟩]) ∧
      x.position ⟨1⟩ + 1 < x.position ⟨2⟩ := by
  intro old x
  have hold : old.Reachable := .asked (.edited _ (.edited _ (.start .empty)))
  have hx : x.Reachable := .edited _ (.asked (.edited _ (.asked (.edited _ hold))))
  have hlinks : x.document.children ⟨1⟩ = [⟨2⟩] ∧ x.document.attributes ⟨1⟩ = [⟨3⟩] := by
    decide
  have hmem : (⟨2⟩ : NodeId) ∈ x.document.children ⟨1⟩ := by simp [hlinks.1]
  have hcontent := hx.position_spec.1.content ⟨1⟩ ⟨2⟩ ⟨2⟩ hmem .refl
  rw [hlinks.2] at hcontent
  exact ⟨hx, hlinks, hcontent⟩

end IndexedDocument
end XPath
