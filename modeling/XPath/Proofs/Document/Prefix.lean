import XPath.Document.Import
import XPath.Eval.NodeTest
import XPath.Proofs.Document.Attribute
import XPath.Proofs.Document.Import
import XPath.Proofs.Markup.Tree
/-! Prefixes in imported documents. A node gets the prefix of the first binding in scope to its
namespace, which is the prefix that its name is written with unless another binding to the same
namespace comes first. That the trees are resolved is all that this needs of their reader. -/
namespace XPath
set_option autoImplicit false

open Markup Document

/-! ## Written names -/

namespace Markup

variable {bindings : List Binding} {binding : Binding} {qualifier : Option String} {u : String}
  {written : WrittenName}

theorem exists_of_uriOf? (h : uriOf? bindings qualifier = some u) :
    ∃ binding ∈ bindings, binding.qualifier = qualifier ∧ binding.uri = u := by
  obtain ⟨binding, hfind, huri⟩ := Option.map_eq_some_iff.mp h
  exact ⟨binding, List.mem_of_find?_eq_some hfind, by simpa using List.find?_some hfind, huri⟩

/-- The binding to a namespace that no other binding is to. -/
theorem find?_uri_of_nodup (hnodup : (bindings.map Binding.uri).Nodup) (hmem : binding ∈ bindings) :
    bindings.find? (fun other => other.uri == binding.uri) = some binding := by
  induction bindings with
  | nil => cases hmem
  | cons first rest ih =>
    obtain ⟨hfirst, hrest⟩ := List.nodup_cons.mp hnodup
    obtain rfl | hmem := List.mem_cons.mp hmem
    · rw [List.find?_cons_of_pos (by simp)]
    · have hne : first.uri ≠ binding.uri := fun heq =>
        hfirst (heq ▸ List.mem_map_of_mem hmem)
      rw [List.find?_cons_of_neg (by simpa using hne), ih hrest hmem]

namespace WrittenName

/-- The name has the namespace that the bindings give it, as an element's or an attribute's. -/
structure IsResolved (written : WrittenName) : Prop where
  isProper : written.name.IsProper
  isProper_of_binding : ∀ binding ∈ written.bindings, binding.IsProper
  uri_eq : elementUri written.bindings written.name = some written.uri ∨
    attributeUri written.bindings written.name = some written.uri

/-- Where the namespace of a name comes from. -/
theorem IsResolved.uri_cases (h : written.IsResolved) :
    (written.uri = none ∧ written.name.qualifier = none) ∨
      (written.uri = some xmlUri ∧ written.name.qualifier = some "xml") ∨
      ∃ binding ∈ written.bindings, binding.qualifier = written.name.qualifier ∧
        written.uri = some binding.uri := by
  have hbound : ∀ u, uriOf? written.bindings written.name.qualifier = some u →
      written.uri = some u → ∃ binding ∈ written.bindings,
        binding.qualifier = written.name.qualifier ∧ written.uri = some binding.uri := by
    intro u hu huri
    obtain ⟨binding, hmem, hqualifier, rfl⟩ := exists_of_uriOf? hu
    exact ⟨binding, hmem, hqualifier, huri⟩
  obtain helement | hattribute := h.uri_eq
  · unfold elementUri at helement
    cases hu : uriOf? written.bindings written.name.qualifier with
    | some u =>
      rw [hu] at helement
      exact .inr (.inr (hbound u hu (Option.some.inj helement).symm))
    | none =>
      rw [hu] at helement
      cases hqualifier : written.name.qualifier with
      | none =>
        rw [hqualifier] at helement
        exact .inl ⟨(Option.some.inj helement).symm, rfl⟩
      | some qualifier =>
        rw [hqualifier] at helement
        cases helement
  · unfold attributeUri at hattribute
    split at hattribute
    · next hqualifier => exact .inl ⟨(Option.some.inj hattribute).symm, hqualifier⟩
    · next hqualifier => exact .inr (.inl ⟨(Option.some.inj hattribute).symm, hqualifier⟩)
    · next qualifier _ hqualifier =>
      obtain ⟨u, hu, heq⟩ := Option.map_eq_some_iff.mp hattribute
      exact .inr (.inr (hbound u (hqualifier ▸ hu) heq.symm))

/-- The recovered name is the written one if and only if the first binding is the one used. -/
theorem IsResolved.nameIn_eq_iff (h : written.IsResolved) :
    nameIn written.bindings written.uri written.name.localPart = written.name ↔
      written.IsKept := by
  have hname : nameIn written.bindings written.uri written.name.localPart = written.name ↔
      written.uri.bind (qualifierFor? written.bindings) = written.name.qualifier := by
    obtain ⟨⟨qualifier, localPart⟩, uri, bindings⟩ := written
    rw [nameIn, QName.mk.injEq, and_iff_left rfl]
  rw [hname, IsKept]
  obtain ⟨huri, hqualifier⟩ | ⟨huri, hqualifier⟩ | ⟨binding, hmem, hqualifier, huri⟩ := h.uri_cases
  · rw [huri, hqualifier]
    exact iff_of_true rfl fun u hu => absurd hu.symm (Option.some_ne_none u)
  · rw [huri, hqualifier]
    refine iff_of_true rfl fun u hu hne => absurd (Option.some.inj hu).symm hne
  · have hne : binding.uri ≠ xmlUri := (h.isProper_of_binding binding hmem).uri_ne
    have hfound : (written.bindings.find? fun other => other.uri == binding.uri).isSome :=
      List.find?_isSome.mpr ⟨binding, hmem, beq_self_eq_true _⟩
    obtain ⟨first, hfirst⟩ := Option.isSome_iff_exists.mp hfound
    have hrecovered : written.uri.bind (qualifierFor? written.bindings) = first.qualifier := by
      rw [huri, Option.bind_some, qualifierFor?, if_neg (by simpa using hne), hfirst]
      rfl
    rw [hrecovered, huri]
    constructor
    · rintro heq _ ⟨⟩ -
      rw [hfirst, ← heq]
      rfl
    · intro hkept
      have hmap := hkept binding.uri rfl hne
      rw [hfirst] at hmap
      exact Option.some.inj hmap

/-- Where no two bindings in scope are to one namespace, no prefix can be lost. -/
theorem IsResolved.isKept_of_nodup (h : written.IsResolved)
    (hnodup : (written.bindings.map Binding.uri).Nodup) : written.IsKept := by
  intro u hu hne
  obtain ⟨huri, -⟩ | ⟨huri, -⟩ | ⟨binding, hmem, hqualifier, huri⟩ := h.uri_cases
  · rw [huri] at hu
    cases hu
  · exact absurd (Option.some.inj (hu.symm.trans huri)) hne
  · obtain rfl : binding.uri = u := Option.some.inj (huri.symm.trans hu)
    rw [find?_uri_of_nodup hnodup hmem, ← hqualifier]
    rfl

end WrittenName

/-! ## The names in a tree -/

theorem isResolved_of_resolved {name : QName} {uri : Option String} {bindings : List Binding}
    {attributes : List TreeAttribute} (h : Resolved name uri bindings attributes) :
    (WrittenName.mk name uri bindings).IsResolved ∧
      ∀ attr ∈ attributes, (WrittenName.mk attr.name attr.uri bindings).IsResolved :=
  ⟨⟨h.isProper, h.isProper_of_binding, .inl h.elementUri_eq⟩, fun attr hattr =>
    ⟨h.isProper_of_attribute attr hattr, h.isProper_of_binding,
      .inr (h.attributeUri_eq attr hattr)⟩⟩

theorem Resolved.wellNamed {name : QName} {uri : Option String} {bindings : List Binding}
    {attributes : List TreeAttribute} (h : Resolved name uri bindings attributes) :
    WellNamed name uri bindings attributes :=
  ⟨h.isProper.1, fun binding hmem => (h.isProper_of_binding binding hmem).isNamePart,
    fun attr hattr => (h.isProper_of_attribute attr hattr).1, h.distinct⟩

mutual

theorem isResolved_of_mem_names {tree : Tree} (h : tree.Everywhere Resolved)
    (hmem : some written ∈ tree.names) : written.IsResolved := by
  cases tree with
  | element name uri bindings attributes children =>
    obtain ⟨helement, hattributes⟩ := isResolved_of_resolved h.1
    rw [Tree.names, List.mem_cons, List.mem_append, List.mem_map] at hmem
    obtain heq | ⟨attr, hattr, heq⟩ | hmem := hmem
    · exact Option.some.inj heq ▸ helement
    · exact Option.some.inj heq ▸ hattributes attr hattr
    · exact isResolved_of_mem_namesOfAll h.2 hmem
  | text data => cases List.mem_singleton.mp hmem
  | comment data => cases List.mem_singleton.mp hmem
  | instruction target data => cases List.mem_singleton.mp hmem

theorem isResolved_of_mem_namesOfAll {trees : List Tree} (h : EverywhereIn Resolved trees)
    (hmem : some written ∈ namesOfAll trees) : written.IsResolved := by
  cases trees with
  | nil => cases hmem
  | cons tree rest =>
    rw [namesOfAll, List.mem_append] at hmem
    obtain hmem | hmem := hmem
    · exact isResolved_of_mem_names h.1 hmem
    · exact isResolved_of_mem_namesOfAll h.2 hmem

end

end Markup

/-! ## The nodes of a document -/

namespace Document

/-- Whether a node is what a written name is made into; nodes without one are neither elements nor
attributes. -/
def Bears (node : Node) : Option WrittenName → Prop
  | some written => (node.kind.isElement ∨ node.kind.isAttribute) ∧
      node.kind.name? = some (nameIn written.bindings written.uri written.name.localPart) ∧
      node.kind.uri? = written.uri
  | none => node.kind.isElement = false ∧ node.kind.isAttribute = false

mutual

theorem forall₂_bears_nodesOf (p : NodeId) (start : Nat) (tree : Tree) :
    List.Forall₂ Bears (nodesOf p start tree) tree.names := by
  cases tree with
  | element name uri bindings attributes children =>
    rw [nodesOf, Tree.names]
    refine .cons ⟨.inl rfl, rfl, rfl⟩ (List.rel_append ?_ ?_)
    · exact List.forall₂_map_left_iff.mpr (List.forall₂_map_right_iff.mpr
        (List.forall₂_same.mpr fun attr _ => ⟨.inr rfl, rfl, rfl⟩))
    · exact forall₂_bears_nodesOfAll _ _ children
  | text data => exact .cons ⟨rfl, rfl⟩ .nil
  | comment data => exact .cons ⟨rfl, rfl⟩ .nil
  | instruction target data => exact .cons ⟨rfl, rfl⟩ .nil

theorem forall₂_bears_nodesOfAll (p : NodeId) (start : Nat) (trees : List Tree) :
    List.Forall₂ Bears (nodesOfAll p start trees) (namesOfAll trees) := by
  cases trees with
  | nil => exact .nil
  | cons tree rest =>
    rw [nodesOfAll, namesOfAll]
    exact List.rel_append (forall₂_bears_nodesOf p start tree) (forall₂_bears_nodesOfAll p _ rest)

end

/-- The name that a node is written with. -/
def writtenName? (trees : List Tree) (id : NodeId) : Option WrittenName :=
  (none :: namesOfAll trees)[id.index]?.join

variable {trees : List Tree} {id : NodeId} {written : WrittenName}

theorem bears_of_node? {node : Node} (hid : (ofTrees trees).node? id = some node) :
    Bears node (writtenName? trees id) := by
  obtain ⟨n⟩ := id
  cases n with
  | zero =>
    obtain rfl := Option.some.inj (hid.symm.trans (node?_ofTrees_root trees))
    exact ⟨rfl, rfl⟩
  | succ n =>
    have hnodes := forall₂_bears_nodesOfAll root 1 trees
    have hn : n < (nodesOfAll root 1 trees).length := by
      have hsize := node?_isSome_iff.mp (Option.isSome_iff_exists.mpr ⟨node, hid⟩)
      rw [size_ofTrees] at hsize
      rw [length_nodesOfAll]
      change n + 1 < 1 + sizeOfAll trees at hsize
      omega
    have hnode : (nodesOfAll root 1 trees)[n] = node := by
      have hplace := holds_ofTrees trees n hn
      rw [Nat.add_comm, hid, List.getElem?_eq_getElem hn] at hplace
      exact (Option.some.inj hplace).symm
    have hn' : n < (namesOfAll trees).length := hnodes.length_eq ▸ hn
    have hname : writtenName? trees ⟨n + 1⟩ = (namesOfAll trees)[n] := by
      rw [writtenName?, List.getElem?_cons_succ, List.getElem?_eq_getElem hn', Option.join_some]
    rw [hname, ← hnode]
    exact hnodes.get hn hn'

theorem isResolved_of_writtenName? (h : EverywhereIn Resolved trees)
    (hid : writtenName? trees id = some written) : written.IsResolved := by
  obtain hmem := List.mem_of_getElem? (Option.join_eq_some_iff.mp hid)
  obtain heq | hmem := List.mem_cons.mp hmem
  · cases heq
  · exact isResolved_of_mem_namesOfAll h hmem

theorem writtenName?_eq_none (hid : (ofTrees trees).node? id = none) :
    writtenName? trees id = none := by
  have hlength := (forall₂_bears_nodesOfAll root 1 trees).length_eq
  have hsize := node?_eq_none_iff.mp hid
  rw [size_ofTrees, ← length_nodesOfAll root 1, hlength] at hsize
  rw [writtenName?, List.getElem?_eq_none (by rw [List.length_cons]; omega)]
  rfl

/-- The nodes with a name are the elements and the attributes. -/
theorem isSome_writtenName?_iff : (writtenName? trees id).isSome ↔
    (ofTrees trees).isElement id ∨ (ofTrees trees).isAttribute id := by
  cases hnode : (ofTrees trees).node? id with
  | none =>
    simp [Document.isElement, Document.isAttribute, kind?, hnode, writtenName?_eq_none hnode]
  | some node =>
    have hbears := bears_of_node? hnode
    rw [Document.isElement, Document.isAttribute, kind?, hnode]
    cases hname : writtenName? trees id with
    | none =>
      rw [hname] at hbears
      simp [hbears.1, hbears.2]
    | some written =>
      rw [hname] at hbears
      simpa using hbears.1

theorem name?_of_writtenName? (hid : writtenName? trees id = some written) :
    (ofTrees trees).name? id =
        some (nameIn written.bindings written.uri written.name.localPart) ∧
      (ofTrees trees).uri? id = written.uri := by
  cases hnode : (ofTrees trees).node? id with
  | none =>
    rw [writtenName?_eq_none hnode] at hid
    cases hid
  | some node =>
    have hbears := bears_of_node? hnode
    rw [hid] at hbears
    rw [Document.name?, Document.uri?, kind?, hnode]
    exact ⟨hbears.2.1, hbears.2.2⟩

/-- A name is stored as it is written if and only if its binding is the first to its namespace. -/
theorem name?_eq_iff_isKept (h : EverywhereIn Resolved trees)
    (hid : writtenName? trees id = some written) :
    (ofTrees trees).name? id = some written.name ↔ written.IsKept := by
  rw [(name?_of_writtenName? hid).1, Option.some.injEq]
  exact (isResolved_of_writtenName? h hid).nameIn_eq_iff

/-! ## Finding nodes by written names -/

section Tests

variable {d : Document} {axis : Axis} {test : NodeTest} {qualifier : String} {name : QName}

theorem isPrincipal_of_passes_written (htest : test.qualifier? = some qualifier)
    (h : test.passes d axis (.written qualifier) id) : NodeTest.isPrincipal d axis id := by
  cases test with
  | name expected => exact (Bool.and_eq_true_iff.mp (Bool.and_eq_true_iff.mp h).1).1
  | anyWith other => exact (Bool.and_eq_true_iff.mp h).1
  | _ => cases htest

/-- A test with a prefix, in terms of the name of the node. -/
theorem passes_written_iff (htest : test.qualifier? = some qualifier)
    (hname : d.name? id = some name) :
    test.passes d axis (.written qualifier) id ↔ NodeTest.isPrincipal d axis id ∧
      name.qualifier = some qualifier ∧
      ∀ expected, test = .name expected → name.localPart = expected.localPart := by
  cases test with
  | name expected =>
    simp only [NodeTest.passes, NodeTest.hasLocalPart, Qualification.admits, hname,
      Option.any_some, Bool.and_eq_true, beq_iff_eq, and_assoc]
    refine and_congr_right fun _ => and_comm.trans (and_congr_right fun _ => ?_)
    constructor
    · rintro h _ ⟨⟩
      exact h
    · exact fun h => h expected rfl
  | anyWith other => simp [NodeTest.passes, Qualification.admits, hname]
  | _ => cases htest

/-- Names on an axis are about elements or about attributes. -/
theorem isElement_or_isAttribute_of_isPrincipal (h : NodeTest.isPrincipal d axis id) :
    d.isElement id ∨ d.isAttribute id := by
  unfold NodeTest.isPrincipal at h
  split at h
  · exact .inr h
  · cases h
  · exact .inl h

/-- A test with a prefix passes on the nodes of the right kind that are written with it. -/
theorem passes_written_iff_writtenName? (h : EverywhereIn Resolved trees)
    (hkept : ∀ written ∈ writtenName? trees id, written.IsKept)
    (htest : test.qualifier? = some qualifier) :
    test.passes (ofTrees trees) axis (.written qualifier) id ↔
      NodeTest.isPrincipal (ofTrees trees) axis id ∧
        ∃ written, writtenName? trees id = some written ∧
          written.name.qualifier = some qualifier ∧
          ∀ expected, test = .name expected → written.name.localPart = expected.localPart := by
  cases hid : writtenName? trees id with
  | none =>
    have hnone : ¬ NodeTest.isPrincipal (ofTrees trees) axis id := by
      intro hprincipal
      have hsome := isSome_writtenName?_iff.mpr (isElement_or_isAttribute_of_isPrincipal hprincipal)
      rw [hid] at hsome
      cases hsome
    exact iff_of_false (fun hpasses => hnone (isPrincipal_of_passes_written htest hpasses))
      fun hwritten => hnone hwritten.1
  | some written =>
    have hname := (name?_eq_iff_isKept h hid).mpr (hkept written hid)
    rw [passes_written_iff htest hname]
    refine and_congr_right fun _ => ⟨fun hnamed => ⟨written, rfl, hnamed⟩, ?_⟩
    rintro ⟨_, ⟨⟩, hnamed⟩
    exact hnamed

end Tests

/-- The first attribute with a name is the first that is written so. -/
theorem attributeNode?_eq_find?_written (h : EverywhereIn Resolved trees) {element : NodeId}
    (hkept : ∀ a ∈ (ofTrees trees).attributes element, ∀ written ∈ writtenName? trees a,
      written.IsKept) {name : QName} (hname : name.IsProper) :
    (ofTrees trees).attributeNode? element name.text =
      ((ofTrees trees).attributes element).find? fun a =>
        (writtenName? trees a).any fun written => written.name == name := by
  have hwf : (ofTrees trees).WellFormed :=
    wellFormed_ofTrees (everywhereIn_imp (fun _ _ _ _ => Resolved.wellNamed) h)
  rw [attributeNode?_eq, attributesNamed, ← List.head?_filter]
  refine congrArg List.head? (List.filter_congr fun a ha => ?_)
  obtain ⟨written, hwritten⟩ := Option.isSome_iff_exists.mp
    (isSome_writtenName?_iff.mpr (.inr (hwf.isAttribute_of_mem_attributes ha)))
  have hproper := (isResolved_of_writtenName? h hwritten).isProper
  rw [(name?_eq_iff_isKept h hwritten).mpr (hkept a ha written hwritten), hwritten, Option.map_some,
    Option.any_some, Bool.eq_iff_iff, beq_iff_eq, beq_iff_eq, Option.some.injEq]
  constructor
  · intro htext
    rw [← hproper.ofText_text, htext, hname.ofText_text]
  · exact congrArg QName.text

/-! ## Whole documents -/

/-- In a document that is made of resolved trees, every element and attribute has the prefix of the
first binding in scope to its namespace. That is the prefix it is written with if and only if no
other binding to the namespace comes before the one it uses, as is always so where no two bindings
are to one namespace. Then prefixes without a resolver, and names of attributes, find exactly the
nodes that are written so. -/
theorem prefixes_recovered (h : EverywhereIn Resolved trees) :
    ∃ d, addTrees root .empty trees = .ok d ∧
      (∀ reader text, reader text = some trees → readWith? reader text = some d) ∧
      (∀ id, (writtenName? trees id).isSome ↔ d.isElement id ∨ d.isAttribute id) ∧
      (∀ id written, writtenName? trees id = some written →
        d.name? id = some ⟨written.uri.bind (qualifierFor? written.bindings),
          written.name.localPart⟩ ∧
        (d.name? id = some written.name ↔ written.IsKept) ∧
        ((written.bindings.map Binding.uri).Nodup → written.IsKept)) ∧
      (∀ id, (∀ written ∈ writtenName? trees id, written.IsKept) →
        ∀ axis test qualifier, test.qualifier? = some qualifier →
          NodeTest.qualification none test = .ok (.written qualifier) ∧
          (test.passes d axis (.written qualifier) id ↔ NodeTest.isPrincipal d axis id ∧
            ∃ written, writtenName? trees id = some written ∧
              written.name.qualifier = some qualifier ∧
              ∀ expected, test = .name expected → written.name.localPart = expected.localPart)) ∧
      ∀ element, (∀ a ∈ d.attributes element, ∀ written ∈ writtenName? trees a, written.IsKept) →
        ∀ name : QName, name.IsProper → d.attribute? element name.text =
          ((d.attributes element).find? fun a =>
            (writtenName? trees a).any fun written => written.name == name).bind
            d.attributeValue? := by
  have hnamed := everywhereIn_imp (fun _ _ _ _ => Resolved.wellNamed) h
  refine ⟨ofTrees trees, addTrees_eq_ofTrees hnamed,
    fun reader text htext => readWith?_eq_ofTrees htext hnamed, fun id => isSome_writtenName?_iff,
    fun id written hid => ?_, fun id hkept axis test qualifier htest => ⟨?_, ?_⟩,
    fun element hkept name hname => ?_⟩
  · exact ⟨(name?_of_writtenName? hid).1, name?_eq_iff_isKept h hid,
      (isResolved_of_writtenName? h hid).isKept_of_nodup⟩
  · unfold NodeTest.qualification
    rw [htest]
  · exact passes_written_iff_writtenName? h hkept htest
  · rw [← attributeNode?_eq_find?_written h hkept hname]
    rfl

/-- Where two prefixes stand for one namespace, an element written with the second is stored with
the first, and one written with the first is found by it. -/
theorem prefixes_recovered_of_two :
    let text := "<a xmlns:p='u' xmlns:q='u'><q:b/><p:c/></a>"
    let bindings : List Binding := [⟨some "p", "u"⟩, ⟨some "q", "u"⟩]
    ∃ d trees, Markup.parse text = some trees ∧ EverywhereIn Resolved trees ∧
      addTrees root .empty trees = .ok d ∧ parse? text = some d ∧
      (writtenName? trees ⟨2⟩ = some ⟨⟨some "q", "b"⟩, some "u", bindings⟩ ∧
        d.name? ⟨2⟩ = some ⟨some "p", "b"⟩ ∧
        ¬ (WrittenName.mk ⟨some "q", "b"⟩ (some "u") bindings).IsKept) ∧
      writtenName? trees ⟨3⟩ = some ⟨⟨some "p", "c"⟩, some "u", bindings⟩ ∧
        d.name? ⟨3⟩ = some ⟨some "p", "c"⟩ ∧
        (NodeTest.name ⟨some "p", "c"⟩).passes d .child (.written "p") ⟨3⟩ := by
  intro text bindings
  -- The text is read once, for the names in the trees and for a kind in the document together.
  have hmap : (Markup.parse text).map (fun trees =>
      (namesOfAll trees, (addTrees root .empty trees).toOption.map (isElement · ⟨3⟩))) =
      some ([some ⟨.plain "a", none, bindings⟩, some ⟨⟨some "q", "b"⟩, some "u", bindings⟩,
        some ⟨⟨some "p", "c"⟩, some "u", bindings⟩], some true) := by decide +kernel
  obtain ⟨trees, htrees, hpair⟩ := Option.map_eq_some_iff.mp hmap
  obtain ⟨hnames, hkind⟩ := Prod.mk.inj hpair
  have hresolved := everywhereIn_parse htrees
  obtain ⟨d, hd, hread, -, hname, htest, -⟩ := prefixes_recovered hresolved
  have helement : d.isElement ⟨3⟩ = true := by
    rw [hd] at hkind
    exact Option.some.inj hkind
  have hsecond : writtenName? trees ⟨2⟩ = some ⟨⟨some "q", "b"⟩, some "u", bindings⟩ := by
    rw [writtenName?, hnames]
    rfl
  have hthird : writtenName? trees ⟨3⟩ = some ⟨⟨some "p", "c"⟩, some "u", bindings⟩ := by
    rw [writtenName?, hnames]
    rfl
  have hlost : d.name? ⟨2⟩ = some ⟨some "p", "b"⟩ := (hname _ _ hsecond).1
  have hfound : d.name? ⟨3⟩ = some ⟨some "p", "c"⟩ := (hname _ _ hthird).1
  refine ⟨d, trees, htrees, hresolved, hd, hread Markup.parse text htrees,
    ⟨hsecond, hlost, fun hkept => ?_⟩, hthird, hfound, ?_⟩
  · have hwritten := (hname _ _ hsecond).2.1.mpr hkept
    rw [hlost] at hwritten
    exact absurd hwritten (by decide)
  · have hkept := (hname _ _ hthird).2.1.mp hfound
    have honly : ∀ written ∈ writtenName? trees ⟨3⟩, written.IsKept := by
      intro written hwritten
      rw [hthird] at hwritten
      exact Option.some.inj hwritten ▸ hkept
    refine (htest ⟨3⟩ honly .child _ "p" rfl).2.mpr ⟨helement, _, hthird, rfl, ?_⟩
    rintro _ ⟨⟩
    rfl

end Document
end XPath
