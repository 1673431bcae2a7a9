import XPath.Proofs.Document.Attribute
import XPath.Proofs.Document.Search
import XPath.Proofs.Eval.Union
import XPath.Proofs.Text.Words
/-! Elements by identifier. The function `id` takes the words of texts for identifiers and finds them
in attributes `id` and `xml:id`, whatever white space is around their values; a document compares
the value of `id` as it is, and stops at the first element. -/
namespace XPath
set_option autoImplicit false

open Document (root)

variable {scope : Scope} {focus : Focus}

/-- A name whose text is without a colon has no qualifier. -/
theorem QName.eq_plain_of_text {name : QName} {text : String} (htext : name.text = text)
    (hcolon : ':' ∉ text.toList) : name = .plain text := by
  obtain ⟨_ | qualifier, localPart⟩ := name
  · exact congrArg QName.plain htext
  · refine absurd ?_ hcolon
    rw [← htext]
    simp [QName.text]

/-- The texts that hold identifiers: the string values of the members of a node-set; the text of any
other value. -/
def Value.identifierTexts (d : Document) : Value → List String
  | .nodes ids => ids.map d.stringValue
  | value => [value.toText d]

/-- The words of texts. -/
def tokensOf (texts : List String) : List (List Char) :=
  texts.flatMap fun text => Text.words Text.isSpace text.toList

namespace Document

variable {d : Document} {e r x : NodeId} {l : List NodeId} {P : NodeId → Prop} {token : List Char}
  {texts : List String} {s t value : String}

/-- An element with an attribute `id` or `xml:id` that has this value, apart from white space around
it. -/
structure HasIdentifier (d : Document) (e : NodeId) (token : List Char) : Prop where
  isElement : d.isElement e = true
  exists_attribute : ∃ a ∈ d.attributes e, ∃ name uri value,
    d.kind? a = some (.attribute name uri value) ∧
      (name.qualifier = none ∨ name.qualifier = some "xml") ∧ name.localPart = "id" ∧
      Text.trim Text.isSpace value.toList = token

/-- An element of the document's tree whose attribute `id` has this value. -/
structure HasId (d : Document) (value : String) (e : NodeId) : Prop where
  under : d.Under root e
  isElement : d.isElement e = true
  attribute_eq : d.attribute? e "id" = some value

/-! ## Finding by value -/

namespace WellFormed

theorem mem_subtree_of_isElement (h : d.WellFormed) (he : d.isElement e = true) :
    e ∈ d.subtree r ↔ d.Under r e := by
  rw [h.mem_subtree, and_iff_left]
  simp [isAttribute_eq_false_of_isContainer (isContainer_of_isElement he)]

/-! ## The first element -/

theorem elementById?_eq_some_iff (h : d.WellFormed) : d.elementById? value = some e ↔
    d.HasId value e ∧ ∀ e', d.HasId value e' → e' ≠ e → d.Before e e' := by
  have htest : ∀ e, d.HasId value e ↔ e ∈ d.subtree root ∧
      (d.isElement e && d.attribute? e "id" == some value) = true := by
    intro e
    rw [Bool.and_eq_true, beq_iff_eq]
    constructor
    · rintro ⟨hunder, helement, hvalue⟩
      exact ⟨(h.mem_subtree_of_isElement helement).mpr hunder, helement, hvalue⟩
    · rintro ⟨hmem, helement, hvalue⟩
      exact ⟨(h.mem_subtree_of_isElement helement).mp hmem, helement, hvalue⟩
  have hlist : d.ListsForward (d.subtree root) (· ∈ d.subtree root) :=
    ⟨h.pairwise_subtree, fun _ => Iff.rfl⟩
  simp only [htest, and_imp]
  exact hlist.find?_eq_some_iff

theorem elementById?_eq_none_iff (h : d.WellFormed) :
    d.elementById? value = none ↔ ∀ e, ¬ d.HasId value e := by
  rw [elementById?, List.find?_eq_none]
  refine ⟨fun hnone e he => ?_, fun hnone e hmem htest => ?_⟩
  · exact hnone e ((h.mem_subtree_of_isElement he.isElement).mpr he.under)
      (by simp [he.isElement, he.attribute_eq])
  · rw [Bool.and_eq_true, beq_iff_eq] at htest
    exact hnone e ⟨(h.mem_subtree_of_isElement htest.1).mp hmem, htest.1, htest.2⟩

/-! ## Elements with given identifiers -/

theorem isIdentifiedBy_iff (h : d.WellFormed) {tokens : List (List Char)} :
    d.isIdentifiedBy tokens e = true ↔ ∃ token ∈ tokens, d.HasIdentifier e token := by
  rw [isIdentifiedBy, Bool.and_eq_true, List.any_eq_true]
  constructor
  · rintro ⟨helement, a, ha, htest⟩
    obtain ⟨name, value, hk⟩ := h.kind?_of_mem_attributes ha
    rw [isIdentifier, name?_of_kind? hk, stringValue, hk] at htest
    simp only [Option.any_some, Bool.and_eq_true, Bool.or_eq_true, beq_iff_eq,
      List.contains_iff_mem] at htest
    obtain ⟨⟨hqualifier, hlocal⟩, htoken⟩ := htest
    exact ⟨_, htoken, helement, a, ha, name, _, value, hk, hqualifier.symm, hlocal, rfl⟩
  · rintro ⟨token, htoken, helement, a, ha, name, uri, value, hk, hqualifier, hlocal, rfl⟩
    refine ⟨helement, a, ha, ?_⟩
    rw [isIdentifier, name?_of_kind? hk, stringValue, hk]
    simp [hqualifier.symm, hlocal, htoken]

theorem mem_identified (h : d.WellFormed) : e ∈ d.identified r texts ↔
    d.Under r e ∧ ∃ token ∈ tokensOf texts, d.HasIdentifier e token := by
  show e ∈ (d.subtree r).filter (d.isIdentifiedBy (tokensOf texts)) ↔ _
  rw [List.mem_filter, h.isIdentifiedBy_iff]
  refine and_congr_left fun hidentified => ?_
  obtain ⟨token, -, hidentifier⟩ := hidentified
  exact h.mem_subtree_of_isElement hidentifier.isElement

theorem listsForward_identified (h : d.WellFormed) : d.ListsForward (d.identified r texts) fun e =>
    d.Under r e ∧ ∃ text ∈ texts, ∃ token, Text.IsWord Text.isSpace text.toList token ∧
      d.HasIdentifier e token := by
  refine ⟨pairwise_identified h texts, fun e => h.mem_identified.trans (and_congr_right fun _ => ?_)⟩
  simp only [tokensOf, List.mem_flatMap, Text.mem_words_iff]
  constructor
  · rintro ⟨token, ⟨text, htext, hword⟩, hidentifier⟩
    exact ⟨text, htext, token, hword, hidentifier⟩
  · rintro ⟨text, htext, token, hword, hidentifier⟩
    exact ⟨token, ⟨text, htext, hword⟩, hidentifier⟩

theorem lt_size_of_mem_identified (h : d.WellFormed) (he : e ∈ d.identified r texts) :
    e.index < d.size := by
  obtain ⟨-, token, -, hidentifier⟩ := h.mem_identified.mp he
  exact lt_size_of_isContainer (isContainer_of_isElement hidentifier.isElement)

/-- Any walk through the tree finds the same elements, to be put in order. -/
theorem inOrder_collectFrom (h : d.WellFormed) {arrange : List NodeId → List NodeId}
    (harrange : ∀ l, (arrange l).Perm l) :
    d.inOrder (d.collectFrom arrange (d.isIdentifiedBy (tokensOf texts)) d.size [r]) =
      d.identified r texts := by
  have hmem : ∀ x, x ∈ d.collectFrom arrange (d.isIdentifiedBy (tokensOf texts)) d.size [r] ↔
      x ∈ d.identified r texts := fun x => (h.collectFrom_singleton_perm harrange).mem_iff
  exact (h.inOrder_eq_iff fun x hx => h.lt_size_of_mem_identified ((hmem x).mp hx)).mpr
    ⟨pairwise_identified h texts, fun x => (hmem x).symm⟩

/-- The words of two texts with a space between them are those of either. -/
theorem identified_append_space (h : d.WellFormed) : d.identified r [s ++ " " ++ t] =
    d.inOrder (d.identified r [s] ++ d.identified r [t]) := by
  have hwords : tokensOf [s ++ " " ++ t] = tokensOf [s] ++ tokensOf [t] := by
    unfold tokensOf
    rw [List.flatMap_singleton, List.flatMap_singleton, List.flatMap_singleton,
      String.toList_append, String.toList_append, List.append_assoc]
    exact Text.words_append_cons (by rfl) _ _
  refine Eq.symm ((h.inOrder_eq_iff fun x hx => ?_).mpr ⟨pairwise_identified h _, fun x => ?_⟩)
  · rcases List.mem_append.mp hx with hx | hx <;> exact h.lt_size_of_mem_identified hx
  · rw [List.mem_append, h.mem_identified, h.mem_identified, h.mem_identified, hwords]
    simp only [List.mem_append, or_and_right, exists_or, and_or_left]

/-! ## One identifier -/

theorem hasIdentifier_of_attribute? (h : d.WellFormed) (he : d.isElement e = true)
    (hvalue : d.attribute? e "id" = some value) :
    d.HasIdentifier e (Text.trim Text.isSpace value.toList) := by
  rw [attribute?_eq, Option.bind_eq_some_iff] at hvalue
  obtain ⟨a, ha, hvalue⟩ := hvalue
  obtain ⟨hmem, hname⟩ := mem_attributesNamed.mp (List.mem_of_mem_head? ha)
  obtain ⟨name, value', hk⟩ := h.kind?_of_mem_attributes hmem
  rw [attributeValue?, hk] at hvalue
  obtain rfl : value' = value := Option.some.inj hvalue
  rw [name?_of_kind? hk] at hname
  obtain rfl := QName.eq_plain_of_text (Option.some.inj hname) (by decide)
  exact ⟨he, a, hmem, _, _, value', hk, .inl rfl, rfl, rfl⟩

/-- A text without white space is its only word. -/
theorem mem_identified_of_elementById? (h : d.WellFormed) (hne : value ≠ "")
    (hspace : ∀ c ∈ value.toList, Text.isSpace c = false) (he : d.elementById? value = some e) :
    e ∈ d.identified root [value] := by
  obtain ⟨hunder, helement, hvalue⟩ := (h.elementById?_eq_some_iff.mp he).1
  have hidentifier := h.hasIdentifier_of_attribute? helement hvalue
  rw [Text.trim_eq_self hspace] at hidentifier
  have hword : Text.IsWord Text.isSpace value.toList value.toList :=
    Text.isWord_self hspace fun hnil => hne (String.toList_eq_nil_iff.mp hnil)
  exact (h.listsForward_identified.mem_iff e).mpr
    ⟨hunder, value, List.mem_singleton_self _, _, hword, hidentifier⟩

end WellFormed
end Document

/-! ## The function and the search -/

theorem apply_id (arg : Value) : CoreFunction.id.apply scope focus [arg] =
    .ok (.nodes (scope.document.identified scope.root (arg.identifierTexts scope.document))) := by
  cases arg <;> rfl

theorem evaluate_call_id {value : String} (hid : scope.functions.find? "id" = some (.core .id)) :
    (Expr.call "id" [.literal value]).evaluate scope focus =
      .ok (.nodes (scope.document.identified scope.root [value])) := by
  rw [Expr.evaluate]
  show scope.call focus "id" [.string value] = _
  unfold Scope.call
  rw [hid]
  exact apply_id (.string value)

/-- The function `id` returns, in document order, the elements under the root of the context with an
identifier among the words of its argument; that the walk through the tree meets them in another
order makes no difference. Two texts with a space between them yield the union of what either
yields. The search of the document returns the first element with the given value of `id`, which is
among those that the function returns for this value, if that is a single word. -/
theorem identifiers_exact (h : scope.document.Reachable) :
    let d := scope.document
    (∀ (focus : Focus) (arg : Value), ∃ found,
      CoreFunction.id.apply scope focus [arg] = .ok (.nodes found) ∧
      d.ListsForward found (fun e => d.Under scope.root e ∧ ∃ text ∈ arg.identifierTexts d,
        ∃ token, Text.IsWord Text.isSpace text.toList token ∧ d.HasIdentifier e token) ∧
      found = d.inOrder (d.collectFrom List.reverse
        (d.isIdentifiedBy (tokensOf (arg.identifierTexts d))) d.size [scope.root])) ∧
    (∀ (focus : Focus) (s t : String), ∃ first second,
      CoreFunction.id.apply scope focus [.string s] = .ok first ∧
      CoreFunction.id.apply scope focus [.string t] = .ok second ∧
      CoreFunction.id.apply scope focus [.string (s ++ " " ++ t)] =
        BinaryOp.union.apply d first second) ∧
    (∀ value : String,
      d.elementById? value =
        d.searchFrom (fun e => d.isElement e && d.attribute? e "id" == some value) d.size [root] ∧
      (∀ e, d.elementById? value = some e ↔
        d.HasId value e ∧ ∀ e', d.HasId value e' → e' ≠ e → d.Before e e') ∧
      (d.elementById? value = none ↔ ∀ e, ¬ d.HasId value e)) ∧
    ∀ (value : String) (e : NodeId), value ≠ "" →
      (∀ c ∈ value.toList, Text.isSpace c = false) → d.elementById? value = some e →
      ∀ (library : FunctionLibrary) (bindings : String → Option Value) (resolver : Option Resolver),
        library.find? "id" = some (.core .id) →
        ∃ found, (Expr.call "id" [.literal value]).evaluate
          (.startingAt d root library bindings resolver) (.on root) = .ok (.nodes found) ∧
          e ∈ found := by
  intro d
  have hwf : d.WellFormed := h.wellFormed
  refine ⟨fun focus arg => ?_, fun focus s t => ?_, fun value => ?_, ?_⟩
  · exact ⟨_, apply_id arg, hwf.listsForward_identified,
      (hwf.inOrder_collectFrom List.reverse_perm).symm⟩
  · refine ⟨_, _, apply_id (.string s), apply_id (.string t), ?_⟩
    rw [apply_id]
    exact congrArg (fun found => Except.ok (Value.nodes found)) hwf.identified_append_space
  · exact ⟨hwf.searchFrom_singleton.symm, fun e => hwf.elementById?_eq_some_iff,
      hwf.elementById?_eq_none_iff⟩
  · intro value e hne hspace he library bindings resolver hlibrary
    have htop : d.top root = root := hwf.top_of_parent?_eq_none hwf.parent?_root
    refine ⟨d.identified root [value], ?_, hwf.mem_identified_of_elementById? hne hspace he⟩
    rw [evaluate_call_id hlibrary]
    show Except.ok (Value.nodes (d.identified (d.top root) [value])) = _
    rw [htop]

/-- Identifiers with white space around them and with a qualifier, for two words in the other order;
the document finds only the last of the three elements. -/
theorem identifiers_exact_of_two_words :
    let d := Edit.afterAll .empty [.createElement "a" none, .createElement "b" none,
      .createElement "c" none, .createElement "d" none, .appendChild root ⟨1⟩,
      .appendChild ⟨1⟩ ⟨2⟩, .appendChild ⟨1⟩ ⟨3⟩, .appendChild ⟨1⟩ ⟨4⟩,
      .setAttribute ⟨2⟩ "id" none " x ", .setAttribute ⟨3⟩ "xml:id" none "y",
      .setAttribute ⟨4⟩ "id" none "x"]
    let scope := Scope.startingAt d ⟨3⟩ .core (fun _ => none) none
    scope.document.Reachable ∧
      CoreFunction.id.apply scope (.on ⟨3⟩) [.string "y x"] = .ok (.nodes [⟨2⟩, ⟨3⟩, ⟨4⟩]) ∧
      d.ListsForward [⟨2⟩, ⟨3⟩, ⟨4⟩] (fun e => d.Under (d.top ⟨3⟩) e ∧ ∃ text ∈ ["y x"], ∃ token,
        Text.IsWord Text.isSpace text.toList token ∧ d.HasIdentifier e token) ∧
      d.elementById? "x" = some ⟨4⟩ ∧ (∀ e, d.HasId "x" e → e ≠ ⟨4⟩ → d.Before ⟨4⟩ e) ∧
      ∃ found, (Expr.call "id" [.literal "x"]).evaluate
        (.startingAt d root .core (fun _ => none) none) (.on root) = .ok (.nodes found) ∧
        ⟨4⟩ ∈ found := by
  intro d scope
  have h : scope.document.Reachable := Document.Reachable.empty.afterAll _
  have hvalue : CoreFunction.id.apply scope (.on ⟨3⟩) [.string "y x"] =
      .ok (.nodes [⟨2⟩, ⟨3⟩, ⟨4⟩]) := by decide
  have hfound : d.elementById? "x" = some ⟨4⟩ := by decide
  obtain ⟨hfunction, -, hsearch, hboth⟩ := identifiers_exact h
  obtain ⟨found, happly, hlists, -⟩ := hfunction (.on ⟨3⟩) (.string "y x")
  obtain rfl : found = [⟨2⟩, ⟨3⟩, ⟨4⟩] :=
    Value.nodes.inj (Except.ok.inj (happly.symm.trans hvalue))
  exact ⟨h, hvalue, hlists, hfound, (((hsearch "x").2.1 ⟨4⟩).mp hfound).2,
    hboth "x" ⟨4⟩ (by decide) (by decide) hfound .core (fun _ => none) none (by rfl)⟩

end XPath
