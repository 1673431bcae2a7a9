import XPath.Document.Content
import XPath.Proofs.Document.Axis
import XPath.Proofs.Document.Search
/-! String values against the structure. The walk that collects text goes through elements only; as
nothing hangs from nodes of other kinds, it collects the data of every text node below. -/
namespace XPath.Document
set_option autoImplicit false

variable {d : Document} {c n x id : NodeId} {levels : Nat}

def isText (d : Document) (id : NodeId) : Bool := (d.kind? id).any NodeKind.isText

/-- The data of a text node; other nodes add nothing of their own to the text above them. -/
def ownText (d : Document) (id : NodeId) : String :=
  match d.kind? id with
  | some (.text data) => data
  | _ => ""

theorem isText_iff : d.isText x = true ↔ ∃ data, d.kind? x = some (.text data) := by
  unfold isText
  cases d.kind? x with
  | none => simp
  | some kind => cases kind <;> simp [NodeKind.isText]

theorem ownText_of_isText_eq_false (hx : d.isText x = false) : d.ownText x = "" := by
  unfold ownText
  split
  · next data hk => simp [isText_iff.mpr ⟨data, hk⟩] at hx
  · rfl

theorem stringValue_of_isText (hx : d.isText x = true) : d.stringValue x = d.ownText x := by
  obtain ⟨data, hk⟩ := isText_iff.mp hx
  rw [stringValue, ownText, hk]

theorem stringValue_of_isContainer (hx : d.isContainer x = true) :
    d.stringValue x = d.textWithin d.size x := by
  unfold isContainer at hx
  unfold stringValue
  cases hk : d.kind? x with
  | none => simp [hk] at hx
  | some kind => cases kind <;> simp_all [NodeKind.isContainer]

/-! ## Joined texts -/

theorem join_map_flatMap {α β : Type} (g : β → String) (f : α → List β) (l : List α) :
    String.join ((l.flatMap f).map g) = String.join (l.map fun a => String.join ((f a).map g)) := by
  induction l with
  | nil => rfl
  | cons a l ih =>
    rw [List.flatMap_cons, List.map_append, String.join_append, ih, List.map_cons,
      String.join_cons]

/-- Members without text can be left out. -/
theorem join_map_filter {α : Type} {p : α → Bool} {f g : α → String} {l : List α}
    (hf : ∀ a ∈ l, f a = if p a then g a else "") :
    String.join (l.map f) = String.join ((l.filter p).map g) := by
  induction l with
  | nil => rfl
  | cons a l ih =>
    obtain ⟨ha, hl⟩ := List.forall_mem_cons.mp hf
    rw [List.map_cons, String.join_cons, ha, ih hl, List.filter_cons]
    cases p a with
    | true => exact (String.join_cons ..).symm
    | false => exact String.empty_append ..

namespace WellFormed

theorem children_eq_nil (h : d.WellFormed) (hx : d.isContainer x = false) : d.children x = [] := by
  refine List.eq_nil_iff_forall_not_mem.mpr fun c hc => ?_
  simp [(h.of_mem_children x c hc).1] at hx

/-! ## The walk through elements -/

theorem textWithin_eq_empty (h : d.WellFormed) (hx : d.isContainer x = false) :
    d.textWithin levels x = "" := by
  cases levels with
  | zero => rfl
  | succ levels =>
    rw [textWithin, h.children_eq_nil hx]
    rfl

theorem textWithin_eq (h : d.WellFormed) : d.textWithin levels x =
    String.join (((d.children x).flatMap (d.subtreeWithin levels)).map d.ownText) := by
  induction levels generalizing x with
  | zero =>
    have hnone : (d.children x).flatMap (d.subtreeWithin 0) = [] :=
      List.flatMap_eq_nil_iff.mpr fun _ _ => rfl
    rw [hnone]
    rfl
  | succ levels ih =>
    rw [textWithin, join_map_flatMap]
    congr 1
    refine List.map_congr_left fun c hc => ?_
    rw [subtreeWithin, List.map_cons, String.join_cons, ← ih]
    -- A child is an element without data of its own or a node with nothing below it.
    have hinsertable := (h.of_mem_children x c hc).2
    have hleaf : d.isContainer c = false → d.textWithin levels c = "" := h.textWithin_eq_empty
    unfold isInsertable at hinsertable
    unfold isContainer at hleaf
    unfold ownText
    cases hk : d.kind? c with
    | none => simp [hk] at hinsertable
    | some kind =>
      rw [hk] at hinsertable hleaf
      cases kind with
      | document => simp at hinsertable
      | element name uri => simp
      | «attribute» name uri value => simp [hleaf rfl]
      | text data => simp [hleaf rfl]
      | comment data => simp [hleaf rfl]
      | instruction target data => simp [hleaf rfl]

/-- The text below a node is the data of the text nodes below it, in document order. -/
theorem textWithin_size (h : d.WellFormed) :
    d.textWithin d.size x = String.join ((d.descendants x).map d.ownText) := h.textWithin_eq

/-- What a child adds to the text of its parent: its own string value, unless it is a comment or a
processing instruction. -/
theorem join_ownText_subtree (h : d.WellFormed) (hc : c ∈ d.children n) :
    String.join ((d.subtree c).map d.ownText) =
      if d.isText c || d.isElement c then d.stringValue c else "" := by
  have hinsertable := (h.of_mem_children n c hc).2
  rw [h.subtree_eq, List.map_cons, String.join_cons, ← h.textWithin_size]
  cases helement : d.isElement c with
  | true =>
    have htext : d.isText c = false := by
      refine Bool.eq_false_iff.mpr fun htext => ?_
      obtain ⟨data, hk⟩ := isText_iff.mp htext
      rw [isElement, hk] at helement
      cases helement
    rw [ownText_of_isText_eq_false htext, String.empty_append, Bool.or_true, if_pos rfl,
      stringValue_of_isContainer (isContainer_of_isElement helement)]
  | false =>
    have hleaf : d.isContainer c = false := by
      refine Bool.eq_false_iff.mpr fun hcontainer => ?_
      rcases isContainer_iff.mp hcontainer with hk | hk
      · simp [isInsertable, hk] at hinsertable
      · simp [hk] at helement
    rw [h.textWithin_eq_empty hleaf, String.append_empty, Bool.or_false]
    cases htext : d.isText c with
    | true => rw [if_pos rfl, stringValue_of_isText htext]
    | false => rw [if_neg Bool.false_ne_true, ownText_of_isText_eq_false htext]

end WellFormed

/-! ## String values of the document and of elements -/

/-- The string value of the document or of an element is the data of the text nodes among all nodes
that the walk below it meets, in document order. It is made up of the string values of those
children that are text nodes or elements. -/
theorem Reachable.stringValue_exact (h : d.Reachable) (n : NodeId)
    (hn : d.kind? n = some .document ∨ d.isElement n = true) :
    let texts := (d.collectBelow n).filter d.isText
    Axis.descendant.nodes d n = d.collectBelow n ∧
      d.ListsForward texts (fun x => d.IsAncestor n x ∧ d.isText x = true) ∧
      d.stringValue n = String.join (texts.map d.ownText) ∧
      d.stringValue n = String.join
        (((d.children n).filter fun c => d.isText c || d.isElement c).map d.stringValue) := by
  intro texts
  have hwf := h.wellFormed
  have hwalk := hwf.collectBelow_eq (x := n)
  have hbelow := hwf.listsForward_descendants (n := n)
  have hvalue : d.stringValue n = String.join ((d.descendants n).map d.ownText) := by
    rw [stringValue_of_isContainer (isContainer_iff.mpr hn), hwf.textWithin_size]
  have htexts : texts = (d.descendants n).filter d.isText := congrArg (List.filter d.isText) hwalk
  refine ⟨hwalk.symm, ⟨?_, fun x => ?_⟩, ?_, ?_⟩
  · rw [htexts]
    exact hbelow.pairwise.sublist List.filter_sublist
  · rw [htexts, List.mem_filter, hbelow.mem_iff, and_assoc]
    refine and_congr_right fun _ => and_iff_right_of_imp fun hx => ?_
    obtain ⟨data, hk⟩ := isText_iff.mp hx
    rw [isAttribute, hk]
    rfl
  · rw [hvalue, htexts]
    refine join_map_filter fun x _ => ?_
    cases hx : d.isText x with
    | true => rfl
    | false => exact ownText_of_isText_eq_false hx
  · rw [hvalue, descendants, join_map_flatMap]
    exact join_map_filter fun c hc => hwf.join_ownText_subtree hc

/-- An element between texts, with an attribute, a comment and a processing instruction. -/
theorem stringValue_exact_of_mixed_content :
    let d := Edit.afterAll .empty [.createElement "a" none, .createText "x", .createComment "y",
      .createElement "b" none, .createText "z", .createInstruction "p" "q",
      .appendChild root ⟨1⟩, .appendChild ⟨1⟩ ⟨2⟩, .appendChild ⟨1⟩ ⟨3⟩, .appendChild ⟨1⟩ ⟨4⟩,
      .appendChild ⟨4⟩ ⟨6⟩, .appendChild ⟨4⟩ ⟨5⟩, .setAttribute ⟨4⟩ "k" none "v"]
    d.Reachable ∧ d.isElement ⟨1⟩ = true ∧ d.collectBelow ⟨1⟩ = [⟨2⟩, ⟨3⟩, ⟨4⟩, ⟨6⟩, ⟨5⟩] ∧
      d.stringValue ⟨1⟩ = "xz" ∧
      d.stringValue ⟨1⟩ = String.join ([NodeId.mk 2, ⟨5⟩].map d.ownText) ∧
      d.stringValue ⟨1⟩ = String.join ([NodeId.mk 2, ⟨4⟩].map d.stringValue) := by
  intro d
  have h : d.Reachable := Reachable.empty.afterAll _
  have helement : d.isElement ⟨1⟩ = true := by decide
  have hwalk : d.collectBelow ⟨1⟩ = [⟨2⟩, ⟨3⟩, ⟨4⟩, ⟨6⟩, ⟨5⟩] := by decide
  have htexts : (d.collectBelow ⟨1⟩).filter d.isText = [⟨2⟩, ⟨5⟩] := by decide
  have hchildren : (d.children ⟨1⟩).filter (fun c => d.isText c || d.isElement c) =
      [⟨2⟩, ⟨4⟩] := by decide
  obtain ⟨-, -, hvalue, hvalue'⟩ := h.stringValue_exact ⟨1⟩ (.inr helement)
  rw [htexts] at hvalue
  rw [hchildren] at hvalue'
  exact ⟨h, helement, hwalk, by decide, hvalue, hvalue'⟩

end XPath.Document
