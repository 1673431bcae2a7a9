import XPath.Proofs.Document.Numbering
import XPath.Proofs.Document.Stepwise
/-! What the count of changes tells of a whole history. Whoever remembers the count knows from the
same count later that every link of the nodes of that time is still in place, and that these nodes
compare in document order as they did. -/
namespace XPath
set_option autoImplicit false

open Document

variable {d : Document}

/-- Both tables are those of their documents, whenever they were made. -/
theorem Document.SameLinks.order_eq {x y : IndexedDocument} {a b : NodeId}
    (h : x.document.SameLinks y.document) (hx : x.Reachable) (hy : y.Reachable)
    (ha : a.index < x.document.size) (hb : b.index < x.document.size) :
    y.order a b = x.order a b := by
  have hwf := hx.current.reachable.wellFormed
  have hwf' := hy.current.reachable.wellFormed
  have hposition : ∀ id, id.index < x.document.size → y.position id = x.position id := by
    intro id hid
    rw [hx.current.position_eq hid, hy.current.position_eq (hid.trans_le h.size_le),
      h.orderIndex hwf hwf' hid]
  rw [IndexedDocument.order, IndexedDocument.order, hposition a ha, hposition b hb]

/-- The count of changes never falls, and a single edit raises it by one or not at all. An edit
that fails has left no trace, also where it is performed write by write. If the count is the same
after any edits, nothing that was linked is linked in another way, and the old nodes compare in
document order as before. A counter of 64 bits shows the count as long as it is below `2 ^ 64`. -/
theorem Document.Reachable.generation_tells_shape (h : d.Reachable) (edits : List Edit) :
    let later := Edit.afterAll d edits
    d.generation ≤ later.generation ∧
    (∀ edit : Edit, later.generation ≤ (edit.after later).generation ∧
      (edit.after later).generation ≤ later.generation + 1) ∧
    (∀ edit : Edit, match edit.perform.run later with
      | .ok _ next => edit.after later = next
      | .error _ left => left = later ∧ edit.after later = later) ∧
    (later.generation = d.generation →
      (∀ id, id.index < d.size → id.index < later.size ∧ later.parent? id = d.parent? id ∧
        later.children id = d.children id ∧ later.attributes id = d.attributes id) ∧
      ∀ x y : IndexedDocument, x.Reachable → y.Reachable → x.document = d → y.document = later →
        ∀ a b, a.index < d.size → b.index < d.size → y.order a b = x.order a b) := by
  intro later
  have hlater : later.Reachable := h.afterAll edits
  refine ⟨h.generation_le_afterAll edits, fun edit => hlater.wellFormed.generation_le_after edit,
    fun edit => ?_, fun hgeneration => ?_⟩
  · rw [edit.perform_eq]
    cases hrun : edit.run later with
    | ok next => simp [Writer.whole, Edit.after, hrun]
    | error e => simp [Writer.whole, Edit.after, hrun]
  · have hlinks : d.SameLinks later := h.sameLinks_afterAll hgeneration
    refine ⟨fun id hid => ⟨hid.trans_le hlinks.size_le, hlinks.parent? id, hlinks.children id,
      hlinks.attributes id⟩, ?_⟩
    intro x y hx hy hxd hyd a b ha hb
    have hxy : x.document.SameLinks y.document := by rwa [hxd, hyd]
    exact hxy.order_eq hx hy (by rwa [hxd]) (by rwa [hxd])

/-- New nodes, a new value, an attribute that is not there, a child placed in front of itself and a
failed move: none of them is counted. -/
theorem Document.generation_tells_shape_of_uncounted :
    let d := Edit.afterAll .empty [.createElement "a" none, .appendChild root ⟨1⟩,
      .setAttribute ⟨1⟩ "k" none "v", .createText "t", .appendChild ⟨1⟩ ⟨3⟩]
    let edits := [.createComment "c", .setAttribute ⟨1⟩ "k" none "w", .removeAttribute ⟨1⟩ "l",
      .insertBefore ⟨1⟩ ⟨3⟩ (some ⟨3⟩), .appendChild ⟨3⟩ ⟨1⟩, .setText ⟨3⟩ "u"]
    let later := Edit.afterAll d edits
    d.Reachable ∧ later.generation = d.generation ∧ later.size = d.size + 1 ∧
      (IndexedDocument.ofDocument later).number.order ⟨2⟩ ⟨3⟩ =
        (IndexedDocument.ofDocument d).order ⟨2⟩ ⟨3⟩ := by
  intro d edits later
  have h : d.Reachable := Reachable.empty.afterAll _
  have hgeneration : later.generation = d.generation := by decide
  have hsize : later.size = d.size + 1 := by decide
  have htwo : (⟨2⟩ : NodeId).index < d.size := by decide
  have hthree : (⟨3⟩ : NodeId).index < d.size := by decide
  have hnumbered : (IndexedDocument.ofDocument later).number.Reachable :=
    .asked (.start (h.afterAll edits))
  have hdocument : (IndexedDocument.ofDocument later).number.document = later := by
    rw [IndexedDocument.document_number, IndexedDocument.document_ofDocument]
  obtain ⟨-, -, -, hshape⟩ := h.generation_tells_shape edits
  obtain ⟨-, horder⟩ := hshape hgeneration
  exact ⟨h, hgeneration, hsize, horder (.ofDocument d) _ (.start h) hnumbered
    (IndexedDocument.document_ofDocument d) hdocument ⟨2⟩ ⟨3⟩ htwo hthree⟩

end XPath
