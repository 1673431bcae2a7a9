import Mathlib.Data.List.TakeWhile
import XPath.Document.Import
import XPath.Document.Layout
import XPath.Markup.Naming
import XPath.Proofs.Document.Numbering
/-! Building a document from trees. The steps that add one node after the other give the document
that is laid out at once, in which the trees stand as they are and the identifiers are in document
order. -/
namespace XPath
set_option autoImplicit false

open Markup

/-! ## Names -/

theorem IsNamePart.toList_eq_cons {s : String} (h : IsNamePart s) :
    ∃ c rest, s.toList = c :: rest :=
  List.exists_cons_of_ne_nil fun hnil => h.1 (String.toList_eq_nil_iff.mp hnil)

theorem IsNamePart.ne_colon {s : String} (h : IsNamePart s) :
    ∀ c ∈ s.toList, (c != ':') = true := by
  intro c hc
  exact bne_iff_ne.mpr fun hcolon => h.2 (hcolon ▸ hc)

/-- A name of proper parts is split where it was joined. -/
theorem QName.IsProper.ofText_text {name : QName} (h : name.IsProper) :
    QName.ofText name.text = name := by
  obtain ⟨qualifier, localPart⟩ := name
  obtain ⟨hlocal, hqualifier⟩ := h
  obtain ⟨c, rest, hc⟩ := hlocal.toList_eq_cons
  cases qualifier with
  | none =>
    have htake := List.takeWhile_eq_self_iff.mpr hlocal.ne_colon
    have hdrop := List.dropWhile_eq_nil_iff.mpr hlocal.ne_colon
    simp only [QName.text, QName.ofText, htake, hdrop]
    rw [hc]
    rfl
  | some qualifier =>
    have hpart := hqualifier qualifier rfl
    obtain ⟨c', rest', hc'⟩ := hpart.toList_eq_cons
    have hlist : (qualifier ++ ":" ++ localPart).toList =
        qualifier.toList ++ ':' :: localPart.toList := by simp
    have htake : (qualifier.toList ++ ':' :: localPart.toList).takeWhile (· != ':') =
        qualifier.toList := by
      rw [List.takeWhile_append_of_pos hpart.ne_colon]
      simp
    have hdrop : (qualifier.toList ++ ':' :: localPart.toList).dropWhile (· != ':') =
        ':' :: localPart.toList := by
      rw [List.dropWhile_append_of_pos hpart.ne_colon]
      simp
    simp only [QName.text, QName.ofText, hlist, htake, hdrop]
    rw [hc', hc]
    simp only [← hc', ← hc, String.ofList_toList]

namespace Document

variable {d d' : Document} {p x : NodeId} {tops tops' : List NodeId} {nodes nodes' : List Node}
  {node : Node} {kind : NodeKind}

/-! ## Grafting -/

theorem eq_of_node? (hnode : ∀ x, d.node? x = d'.node? x)
    (hgeneration : d.generation = d'.generation) : d = d' := by
  obtain ⟨store, generation⟩ := d
  obtain ⟨store', generation'⟩ := d'
  obtain rfl : generation = generation' := hgeneration
  obtain rfl : store = store' := Array.ext_getElem? fun n => hnode ⟨n⟩
  rfl

theorem size_graft : (d.graft p tops nodes).size = d.size + nodes.length := by
  simp [graft, size, update]

theorem node?_graft : (d.graft p tops nodes).node? x =
    if x.index < d.size then
      (d.node? x).map fun node =>
        if x = p then { node with children := node.children ++ tops } else node
    else nodes[x.index - d.size]? := by
  have hsize : (d.update p fun node => { node with children := node.children ++ tops }).nodes.size =
      d.size := size_update _
  have hstore : (d.graft p tops nodes).node? x =
      ((d.update p fun node => { node with children := node.children ++ tops }).nodes ++
        nodes.toArray)[x.index]? := rfl
  rw [hstore, Array.getElem?_append, hsize]
  by_cases hx : x.index < d.size
  · rw [if_pos hx, if_pos hx]
    refine (node?_update _).trans ?_
    by_cases hp : x = p
    · rw [if_pos hp]
      simp only [hp, if_true]
    · rw [if_neg hp]
      simp only [hp, if_false, Option.map_id']
  · rw [if_neg hx, if_neg hx, List.getElem?_toArray]

theorem graft_nil : d.graft p [] [] = d := by
  refine eq_of_node? (fun x => ?_) rfl
  rw [node?_graft]
  by_cases hx : x.index < d.size
  · simp [hx]
  · rw [if_neg hx, node?_eq_none_iff.mpr (Nat.le_of_not_lt hx)]
    rfl

/-- Grafting twice at one place is grafting once. -/
theorem graft_graft (hp : p.index < d.size) :
    (d.graft p tops nodes).graft p tops' nodes' = d.graft p (tops ++ tops') (nodes ++ nodes') := by
  refine eq_of_node? (fun x => ?_) rfl
  simp only [node?_graft, size_graft]
  by_cases hx : x.index < d.size
  · rw [if_pos hx, if_pos hx, if_pos (by omega), Option.map_map]
    congr 1
    funext node
    by_cases hxp : x = p <;> simp [hxp]
  · have hxp : x ≠ p := fun h => hx (h ▸ hp)
    rw [if_neg hx, if_neg hx, List.getElem?_append]
    by_cases hnodes : x.index < d.size + nodes.length
    · rw [if_pos hnodes, if_pos (by omega)]
      simp [hxp]
    · rw [if_neg hnodes, if_neg (by omega)]
      congr 1
      omega

theorem eq_mk_iff {n : Nat} : x = ⟨n⟩ ↔ x.index = n := ⟨congrArg NodeId.index, congrArg NodeId.mk⟩

/-- The nodes of a graft by the place where they stand. -/
theorem node?_graft_cons : (d.graft p tops (node :: nodes)).node? x =
    if x.index < d.size then
      (d.node? x).map fun node =>
        if x = p then { node with children := node.children ++ tops } else node
    else if x.index = d.size then some node
    else nodes[x.index - d.size - 1]? := by
  rw [node?_graft]
  by_cases hx : x.index < d.size
  · rw [if_pos hx, if_pos hx]
  · rw [if_neg hx, if_neg hx]
    by_cases hfirst : x.index = d.size
    · rw [if_pos hfirst, hfirst, Nat.sub_self]
      rfl
    · have hlater : x.index - d.size = x.index - d.size - 1 + 1 := by omega
      rw [if_neg hfirst, hlater, List.getElem?_cons_succ]
      rfl

/-- Grafting onto the first of the grafted nodes. -/
theorem graft_graft_first :
    (d.graft p tops (node :: nodes)).graft ⟨d.size⟩ tops' nodes' =
      d.graft p tops ({ node with children := node.children ++ tops' } :: (nodes ++ nodes')) := by
  refine eq_of_node? (fun x => ?_) rfl
  rw [node?_graft, node?_graft_cons, node?_graft_cons, size_graft, List.length_cons]
  simp only [eq_mk_iff]
  by_cases hx : x.index < d.size
  · rw [if_pos hx, if_pos hx, if_pos (by omega)]
    simp only [Nat.ne_of_lt hx, if_false, Option.map_id']
  · rw [if_neg hx, if_neg hx]
    by_cases hfirst : x.index = d.size
    · rw [if_pos hfirst, if_pos hfirst, if_pos (by omega), Option.map_some, if_pos hfirst]
    · rw [if_neg hfirst, if_neg hfirst, List.getElem?_append]
      by_cases hnodes : x.index < d.size + (nodes.length + 1)
      · rw [if_pos hnodes, if_pos (by omega)]
        simp only [hfirst, if_false, Option.map_id']
      · rw [if_neg hnodes, if_neg (by omega)]
        congr 1
        omega

theorem createChild_eq_graft (hp : p.index < d.size) : d.createChild p kind =
    (d.graft p [⟨d.size⟩] [⟨kind, some p, [], []⟩], ⟨d.size⟩) := by
  refine Prod.ext (eq_of_node? (fun x => ?_) rfl) rfl
  rw [createChild_eq, node?_update, node?_update, node?_create, node?_graft_cons]
  simp only [eq_mk_iff]
  by_cases hx : x.index < d.size
  · rw [if_pos hx, if_neg (Nat.ne_of_lt hx), if_neg (Nat.ne_of_lt hx)]
    by_cases hxp : x = p
    · simp only [if_pos hxp]
    · simp only [if_neg hxp, Option.map_id']
  · have hxp : x ≠ p := fun h => hx (h ▸ hp)
    rw [if_neg hx, if_neg hxp]
    by_cases hfirst : x.index = d.size
    · rw [if_pos hfirst, if_pos hfirst, if_pos hfirst]
      rfl
    · rw [if_neg hfirst, if_neg hfirst, if_neg hfirst,
        node?_eq_none_iff.mpr (Nat.le_of_not_lt hx)]
      rfl

theorem createAttribute_graft :
    ((d.graft p tops (node :: nodes)).createAttribute ⟨d.size⟩ kind).1 =
      d.graft p tops
        ({ node with attributes := node.attributes ++ [⟨d.size + nodes.length + 1⟩] } ::
          (nodes ++ [⟨kind, some ⟨d.size⟩, [], []⟩])) := by
  refine eq_of_node? (fun x => ?_) rfl
  rw [createAttribute_eq, node?_update, node?_update, node?_create, node?_graft_cons,
    node?_graft_cons, size_graft, List.length_cons]
  simp only [eq_mk_iff]
  by_cases hx : x.index < d.size
  · rw [if_pos hx, if_pos hx, if_neg (by omega), if_neg (by omega), if_neg (by omega)]
  · rw [if_neg hx, if_neg hx]
    by_cases hfirst : x.index = d.size
    · rw [if_pos hfirst, if_pos hfirst, if_pos hfirst, if_neg (by omega), if_neg (by omega)]
      rfl
    · rw [if_neg hfirst, if_neg hfirst, if_neg hfirst]
      by_cases hlast : x.index = d.size + (nodes.length + 1)
      · have hplace : x.index - d.size - 1 = nodes.length := by omega
        rw [if_pos hlast, if_pos hlast, hplace, List.getElem?_concat_length]
        rfl
      · rw [if_neg hlast, if_neg hlast]
        by_cases hnodes : x.index < d.size + (nodes.length + 1)
        · rw [List.getElem?_append_left (by omega)]
        · rw [List.getElem?_eq_none (by omega), List.getElem?_eq_none]
          rw [List.length_append, List.length_singleton]
          omega

/-! ## Attributes -/

theorem length_idsFrom (start count : Nat) : (idsFrom start count).length = count := by
  simp [idsFrom]

theorem idsFrom_succ (start count : Nat) :
    idsFrom start (count + 1) = idsFrom start count ++ [⟨start + count⟩] := by
  rw [idsFrom, List.range'_concat, List.map_append, Nat.one_mul]
  rfl

theorem idsFrom_add (start m n : Nat) :
    idsFrom start (m + n) = idsFrom start m ++ idsFrom (start + m) n := by
  rw [idsFrom, idsFrom, idsFrom, ← List.map_append, List.range'_append_1]

theorem mem_idsFrom {start count : Nat} {id : NodeId} :
    id ∈ idsFrom start count ↔ start ≤ id.index ∧ id.index < start + count := by
  constructor
  · intro h
    obtain ⟨n, hn, rfl⟩ := List.mem_map.mp h
    exact List.mem_range'_1.mp hn
  · intro h
    exact List.mem_map.mpr ⟨id.index, List.mem_range'_1.mpr h, rfl⟩

variable {name : QName} {uri : Option String} {bindings : List Binding}
  {attributes done rest : List TreeAttribute} {attr : TreeAttribute}

/-- The document with an element that has attributes but no children yet. -/
def withElement (d : Document) (p : NodeId) (name : QName) (uri : Option String)
    (bindings : List Binding) (attributes : List TreeAttribute) : Document :=
  d.graft p [⟨d.size⟩] (⟨.element name uri, some p, [], idsFrom (d.size + 1) attributes.length⟩ ::
    attributes.map (attributeNode ⟨d.size⟩ bindings))

theorem qualifier_nameIn (hbindings : ∀ binding ∈ bindings, ∀ qualifier ∈ binding.qualifier,
    IsNamePart qualifier) {localPart : String} :
    ∀ qualifier ∈ (nameIn bindings uri localPart).qualifier, IsNamePart qualifier := by
  intro qualifier hq
  obtain ⟨u, -, hu⟩ := Option.bind_eq_some_iff.mp hq
  unfold qualifierFor? at hu
  split at hu
  · obtain rfl := Option.some.inj hu
    exact ⟨by decide, by decide⟩
  · obtain ⟨binding, hfind, hbinding⟩ := Option.bind_eq_some_iff.mp hu
    exact hbindings binding (List.mem_of_find?_eq_some hfind) qualifier hbinding

theorem node?_withElement_self : (d.withElement p name uri bindings done).node? ⟨d.size⟩ =
    some ⟨.element name uri, some p, [], idsFrom (d.size + 1) done.length⟩ := by
  rw [withElement, node?_graft_cons, if_neg (Nat.lt_irrefl _), if_pos rfl]

/-- No attribute so far has the name and namespace of one that differs from all of them. -/
theorem sameAttribute?_withElement (hother : ∀ other ∈ done,
      ¬ (other.uri = attr.uri ∧ other.name.localPart = attr.name.localPart)) :
    (d.withElement p name uri bindings done).sameAttribute? ⟨d.size⟩
      (nameIn bindings attr.uri attr.name.localPart) attr.uri = none := by
  rw [sameAttribute?, Document.attributes, node?_withElement_self, List.find?_eq_none]
  intro id hid
  obtain ⟨hlow, hhigh⟩ := mem_idsFrom.mp hid
  have hplace : id.index - d.size - 1 < done.length := by omega
  have hnode : (d.withElement p name uri bindings done).node? id =
      some (attributeNode ⟨d.size⟩ bindings done[id.index - d.size - 1]) := by
    rw [withElement, node?_graft_cons, if_neg (by omega), if_neg (by omega), List.getElem?_map,
      List.getElem?_eq_getElem hplace]
    rfl
  have hne := hother _ (List.getElem_mem hplace)
  simp only [kind?, hnode, attributeNode, nameIn, Option.map_some, Bool.and_eq_true, beq_iff_eq,
    QName.mk.injEq]
  exact fun h => hne ⟨h.2, h.1.2⟩

theorem createAttribute_withElement :
    ((d.withElement p name uri bindings done).createAttribute ⟨d.size⟩
      (.attribute (nameIn bindings attr.uri attr.name.localPart) attr.uri attr.value)).1 =
    d.withElement p name uri bindings (done ++ [attr]) := by
  rw [withElement, createAttribute_graft, withElement, List.length_append, List.length_singleton,
    idsFrom_succ, List.length_map, List.map_append, Nat.add_right_comm]
  rfl

theorem putAttribute_of_none {element : NodeId} {name value : String} {uri : Option String}
    (helement : d.isElement element) (hnone : d.sameAttribute? element (.ofText name) uri = none) :
    d.putAttribute element name uri value =
      .ok ((d.createAttribute element (.attribute (.ofText name) uri value)).1, ⟨d.size⟩,
        true) := by
  obtain ⟨node, hnode⟩ := Option.isSome_iff_exists.mp
    (node?_isSome_iff.mpr (lt_size_of_isContainer (isContainer_of_isElement helement)))
  have hk : node.kind.isElement = true := isElement_of_node? hnode ▸ helement
  unfold putAttribute
  rw [node_eq_ok_iff.mpr hnode]
  simp only [bind, Except.bind, hk, hnone]
  rfl

/-- Every attribute of an element is added, since no two of them have the same name. -/
theorem addAttributes_withElement
    (hbindings : ∀ binding ∈ bindings, ∀ qualifier ∈ binding.qualifier, IsNamePart qualifier)
    (hparts : ∀ attr ∈ rest, IsNamePart attr.name.localPart) (hdistinct : Distinct (done ++ rest)) :
    (d.withElement p name uri bindings done).addAttributes ⟨d.size⟩ bindings rest =
      .ok (d.withElement p name uri bindings (done ++ rest)) := by
  induction rest generalizing done with
  | nil => rw [List.append_nil]; rfl
  | cons attr rest ih =>
    have helement : (d.withElement p name uri bindings done).isElement ⟨d.size⟩ :=
      isElement_of_node? node?_withElement_self
    have hname : QName.ofText (nameIn bindings attr.uri attr.name.localPart).text =
        nameIn bindings attr.uri attr.name.localPart :=
      QName.IsProper.ofText_text ⟨hparts attr List.mem_cons_self, qualifier_nameIn hbindings⟩
    have hother : ∀ other ∈ done,
        ¬ (other.uri = attr.uri ∧ other.name.localPart = attr.name.localPart) :=
      fun other hmem => (List.pairwise_append.mp hdistinct).2.2 other hmem attr List.mem_cons_self
    have hput : (d.withElement p name uri bindings done).putAttribute ⟨d.size⟩
          (nameIn bindings attr.uri attr.name.localPart).text attr.uri attr.value =
        .ok (d.withElement p name uri bindings (done ++ [attr]),
          ⟨(d.withElement p name uri bindings done).size⟩, true) := by
      rw [putAttribute_of_none helement (hname.symm ▸ sameAttribute?_withElement hother), hname,
        createAttribute_withElement]
    rw [Document.addAttributes, List.foldlM_cons, List.append_cons]
    simp only [hput]
    exact ih (fun other hmem => hparts other (List.mem_cons_of_mem _ hmem))
      (by rwa [List.append_assoc])

/-! ## Trees -/

mutual

theorem length_nodesOf (parent : NodeId) (start : Nat) (tree : Tree) :
    (nodesOf parent start tree).length = tree.size := by
  cases tree with
  | element name uri bindings attributes children =>
    rw [nodesOf, Tree.size, List.length_cons, List.length_append, List.length_map,
      length_nodesOfAll]
    omega
  | text data => rfl
  | comment data => rfl
  | instruction target data => rfl

theorem length_nodesOfAll (parent : NodeId) (start : Nat) (trees : List Tree) :
    (nodesOfAll parent start trees).length = sizeOfAll trees := by
  cases trees with
  | nil => rfl
  | cons tree rest =>
    rw [nodesOfAll, sizeOfAll, List.length_append, length_nodesOf, length_nodesOfAll]

end

mutual

/-- Adding a tree succeeds and grafts its nodes. -/
theorem addTree_eq_graft {p : NodeId} {d : Document} (hp : p.index < d.size) (tree : Tree)
    (h : tree.Everywhere WellNamed) :
    addTree p d tree = .ok (d.graft p [⟨d.size⟩] (nodesOf p d.size tree)) := by
  cases tree with
  | element name uri bindings attributes children =>
    obtain ⟨hnamed, hchildren⟩ := h
    have hbegin : d.createChild p (.element (nameIn bindings uri name.localPart) uri) =
        (d.withElement p (nameIn bindings uri name.localPart) uri bindings [], ⟨d.size⟩) :=
      createChild_eq_graft hp
    have hattributes : (d.withElement p (nameIn bindings uri name.localPart) uri bindings
          []).addAttributes ⟨d.size⟩ bindings attributes =
        .ok (d.withElement p (nameIn bindings uri name.localPart) uri bindings attributes) :=
      addAttributes_withElement hnamed.isNamePart_of_binding hnamed.isNamePart_of_attribute
        hnamed.distinct
    have hself : d.size < (d.withElement p (nameIn bindings uri name.localPart) uri bindings
        attributes).size := by
      rw [withElement, size_graft, List.length_cons]
      omega
    have hsize : (d.withElement p (nameIn bindings uri name.localPart) uri bindings
        attributes).size = d.size + 1 + attributes.length := by
      rw [withElement, size_graft, List.length_cons, List.length_map]
      omega
    rw [addTree, hbegin]
    simp only [hattributes]
    refine (addTrees_eq_graft (p := ⟨d.size⟩) hself children hchildren).trans ?_
    rw [hsize, withElement, graft_graft_first, nodesOf]
    rfl
  | text data => exact congrArg (Except.ok ·.1) (createChild_eq_graft hp)
  | comment data => exact congrArg (Except.ok ·.1) (createChild_eq_graft hp)
  | instruction target data => exact congrArg (Except.ok ·.1) (createChild_eq_graft hp)

theorem addTrees_eq_graft {p : NodeId} {d : Document} (hp : p.index < d.size) (trees : List Tree)
    (h : EverywhereIn WellNamed trees) :
    addTrees p d trees = .ok (d.graft p (topsFrom d.size trees) (nodesOfAll p d.size trees)) := by
  cases trees with
  | nil => rw [addTrees, topsFrom, nodesOfAll, graft_nil]
  | cons tree rest =>
    have hsize : (d.graft p [⟨d.size⟩] (nodesOf p d.size tree)).size = d.size + tree.size := by
      rw [size_graft, length_nodesOf]
    rw [addTrees, addTree_eq_graft hp tree h.1]
    refine (addTrees_eq_graft (by rw [hsize]; omega) rest h.2).trans ?_
    rw [graft_graft hp, hsize, topsFrom, nodesOfAll]
    rfl

end

/-! ## Reading the layout -/

/-- Whether a stretch of the store, from number `start` on, is the given one. -/
def Holds (d : Document) (start : Nat) (nodes : List Node) : Prop :=
  ∀ n < nodes.length, d.node? ⟨start + n⟩ = nodes[n]?

section Holds

variable {start : Nat}

theorem Holds.left (h : d.Holds start (nodes ++ nodes')) : d.Holds start nodes := by
  intro n hn
  rw [h n (by rw [List.length_append]; omega), List.getElem?_append_left hn]

theorem Holds.right (h : d.Holds start (nodes ++ nodes')) :
    d.Holds (start + nodes.length) nodes' := by
  intro n hn
  rw [Nat.add_assoc, h (nodes.length + n) (by rw [List.length_append]; omega),
    List.getElem?_append_right (Nat.le_add_right _ _), Nat.add_sub_cancel_left]

theorem Holds.head (h : d.Holds start (node :: nodes)) : d.node? ⟨start⟩ = some node :=
  h 0 (Nat.zero_lt_succ _)

theorem Holds.tail (h : d.Holds start (node :: nodes)) : d.Holds (start + 1) nodes :=
  Holds.right (show d.Holds start ([node] ++ nodes) from h)

theorem Holds.map_node? (h : d.Holds start nodes) :
    (idsFrom start nodes.length).map d.node? = nodes.map some := by
  refine List.ext_getElem? fun n => ?_
  by_cases hn : n < nodes.length
  · simp [idsFrom, hn, h n hn]
  · rw [List.getElem?_eq_none (by simpa [length_idsFrom] using hn),
      List.getElem?_eq_none (by simpa using hn)]

end Holds

mutual

theorem depicts_of_holds {p : NodeId} {start : Nat} (tree : Tree)
    (h : d.Holds start (nodesOf p start tree)) : d.Depicts ⟨start⟩ tree := by
  cases tree with
  | element name uri bindings attributes children =>
    rw [nodesOf] at h
    have hself := h.head
    have hattributes := h.tail.left.map_node?
    have hchildren := h.tail.right
    rw [List.length_map] at hattributes hchildren
    refine ⟨by rw [kind?, hself]; rfl, ?_, ?_⟩
    · rw [Document.attributes, hself]
      exact hattributes.trans List.map_map
    · rw [Document.children, hself]
      exact depictsAll_of_holds children hchildren
  | text data =>
    rw [nodesOf] at h
    rw [Depicts, Document.parent?, h.head]
    rfl
  | comment data =>
    rw [nodesOf] at h
    rw [Depicts, Document.parent?, h.head]
    rfl
  | instruction target data =>
    rw [nodesOf] at h
    rw [Depicts, Document.parent?, h.head]
    rfl

theorem depictsAll_of_holds {p : NodeId} {start : Nat} (trees : List Tree)
    (h : d.Holds start (nodesOfAll p start trees)) :
    d.DepictsAll (topsFrom start trees) trees := by
  cases trees with
  | nil => rfl
  | cons tree rest =>
    rw [nodesOfAll] at h
    have hrest := h.right
    rw [length_nodesOf] at hrest
    exact ⟨_, _, rfl, depicts_of_holds tree h.left, depictsAll_of_holds rest hrest⟩

end

mutual

/-- In document order the nodes of a tree have consecutive identifiers. -/
theorem preorder_of_holds {p : NodeId} {start : Nat} (hwf : d.WellFormed) (tree : Tree)
    (h : d.Holds start (nodesOf p start tree)) :
    d.preorder ⟨start⟩ = idsFrom start tree.size := by
  have hone : idsFrom start 1 = [⟨start⟩] := rfl
  rw [hwf.preorder_eq]
  cases tree with
  | element name uri bindings attributes children =>
    rw [nodesOf] at h
    have hself := h.head
    have hchildren := h.tail.right
    rw [List.length_map] at hchildren
    rw [Document.attributes, Document.children, hself, Tree.size, idsFrom_add, idsFrom_add, hone,
      ← Nat.add_assoc]
    have hcontent := flatMap_preorder_of_holds hwf children hchildren
    exact congrArg (fun content => ⟨start⟩ :: (idsFrom (start + 1) attributes.length ++ content))
      hcontent
  | text data =>
    rw [nodesOf] at h
    rw [Document.attributes, Document.children, h.head]
    rfl
  | comment data =>
    rw [nodesOf] at h
    rw [Document.attributes, Document.children, h.head]
    rfl
  | instruction target data =>
    rw [nodesOf] at h
    rw [Document.attributes, Document.children, h.head]
    rfl

theorem flatMap_preorder_of_holds {p : NodeId} {start : Nat} (hwf : d.WellFormed)
    (trees : List Tree) (h : d.Holds start (nodesOfAll p start trees)) :
    (topsFrom start trees).flatMap d.preorder = idsFrom start (sizeOfAll trees) := by
  cases trees with
  | nil => rfl
  | cons tree rest =>
    rw [nodesOfAll] at h
    have hrest := h.right
    rw [length_nodesOf] at hrest
    rw [topsFrom, List.flatMap_cons, sizeOfAll, idsFrom_add, preorder_of_holds hwf tree h.left,
      flatMap_preorder_of_holds hwf rest hrest]

end

/-! ## Whole documents -/

variable {trees : List Tree}

theorem addTrees_eq_ofTrees (h : EverywhereIn WellNamed trees) :
    addTrees root .empty trees = .ok (ofTrees trees) :=
  addTrees_eq_graft (p := root) (d := .empty) (by decide) trees h

theorem wellFormed_ofTrees (h : EverywhereIn WellNamed trees) : (ofTrees trees).WellFormed :=
  ((builds_addTrees wellFormed_empty rfl trees (addTrees_eq_ofTrees h)).grows wellFormed_empty).1

theorem size_ofTrees (trees : List Tree) : (ofTrees trees).size = 1 + sizeOfAll trees := by
  rw [ofTrees, size_graft, length_nodesOfAll]
  rfl

theorem node?_ofTrees_root (trees : List Tree) :
    (ofTrees trees).node? root = some ⟨.document, none, topsFrom 1 trees, []⟩ := by
  rw [ofTrees, node?_graft, if_pos (by decide)]
  rfl

theorem holds_ofTrees (trees : List Tree) : (ofTrees trees).Holds 1 (nodesOfAll root 1 trees) := by
  intro n hn
  have hsize : Document.empty.size = 1 := rfl
  rw [ofTrees, node?_graft, hsize, if_neg (by simp), Nat.add_sub_cancel_left]

/-- Identifiers are in document order. -/
theorem order_ofTrees (h : EverywhereIn WellNamed trees) :
    (ofTrees trees).order = (ofTrees trees).ids := by
  have hwf := wellFormed_ofTrees h
  have hpreorder : (ofTrees trees).preorder root = (ofTrees trees).ids := by
    have hids : (ofTrees trees).ids = idsFrom 0 (1 + sizeOfAll trees) := by
      rw [ids, size_ofTrees, List.range_eq_range']
      rfl
    rw [hwf.preorder_eq, Document.attributes, Document.children, node?_ofTrees_root, hids,
      idsFrom_add]
    exact congrArg (root :: ·) (flatMap_preorder_of_holds hwf trees (holds_ofTrees trees))
  have hstretch : (ofTrees trees).preorder root <:+: (ofTrees trees).order :=
    hwf.preorder_infix_order hwf.size_pos
  rw [hpreorder] at hstretch
  refine (hstretch.eq_of_length ?_).symm
  rw [length_ids, hwf.length_order]

theorem orderIndex_ofTrees (h : EverywhereIn WellNamed trees) {id : NodeId}
    (hid : id.index < (ofTrees trees).size) : (ofTrees trees).orderIndex id = id.index := by
  have hwf := wellFormed_ofTrees h
  have hplace : id.index < (ofTrees trees).order.length := by rwa [hwf.length_order]
  have hself : (ofTrees trees).order[id.index] = id := by simp [order_ofTrees h, ids]
  have hindex := hwf.orderIndex_getElem hplace
  rwa [hself] at hindex

theorem readWith?_eq_ofTrees {reader : String → Option (List Tree)} {text : String}
    (htrees : reader text = some trees) (h : EverywhereIn WellNamed trees) :
    readWith? reader text = some (ofTrees trees) :=
  readWith?_eq_some_iff.mpr ⟨trees, htrees, addTrees_eq_ofTrees h⟩

/-- Trees with proper names can all be made into a document, which holds them as they are and
nothing else: every node has its kind, names and data, its attributes and its children in order.
Identifiers are in document order: an element comes first, then its attributes, then the subtrees
of its children. The document of a text is the one that the trees make which the reader gives. -/
theorem trees_imported (h : EverywhereIn WellNamed trees) :
    ∃ d, addTrees root .empty trees = .ok d ∧
      (∀ reader text, reader text = some trees → readWith? reader text = some d) ∧
      d.generation = 0 ∧ d.WellFormed ∧
      (d.kind? root = some .document ∧ d.attributes root = [] ∧
        d.DepictsAll (d.children root) trees ∧ d.size = 1 + sizeOfAll trees) ∧
      d.order = d.ids ∧
      ∀ id, id.index < d.size → d.orderIndex id = id.index ∧
        (IndexedDocument.ofDocument d).position id = id.index := by
  have hwf := wellFormed_ofTrees h
  have hroot := node?_ofTrees_root trees
  have hchildren : (ofTrees trees).children root = topsFrom 1 trees := by
    rw [Document.children, hroot]
    rfl
  have hposition : ∀ id, id.index < (ofTrees trees).size →
      (IndexedDocument.ofDocument (ofTrees trees)).position id = id.index := by
    intro id hid
    rw [← orderIndex_ofTrees h hid]
    change (ofTrees trees).positions[id.index]?.getD (ofTrees trees).positions.size = _
    rw [hwf.getElem?_positions hid]
    rfl
  refine ⟨ofTrees trees, addTrees_eq_ofTrees h,
    fun reader text htext => readWith?_eq_ofTrees htext h, rfl,
    hwf, ⟨?_, ?_, ?_, size_ofTrees trees⟩, order_ofTrees h,
    fun id hid => ⟨orderIndex_ofTrees h hid, hposition id hid⟩⟩
  · rw [kind?, hroot]
    rfl
  · rw [Document.attributes, hroot]
    rfl
  · rw [hchildren]
    exact depictsAll_of_holds trees (holds_ofTrees trees)

/-- An element in a namespace that the default and a prefix stand for, and two attributes with one
local name, of which the first loses its prefix. -/
theorem trees_imported_of_two_prefixes :
    let trees : List Tree := [.element (.plain "a") (some "u") [⟨none, "u"⟩, ⟨some "p", "u"⟩]
      [⟨⟨some "p", "k"⟩, some "u", "1"⟩, ⟨.plain "k", none, "2"⟩] [.text "t", .comment "c"]]
    EverywhereIn WellNamed trees ∧ ∃ d, addTrees root .empty trees = .ok d ∧
      parse? "<a xmlns='u' xmlns:p='u' p:k='1' k='2'>t<!--c--></a>" = some d ∧
      (d.attributes ⟨1⟩).map d.kind? = [some (.attribute (.plain "k") (some "u") "1"),
        some (.attribute (.plain "k") none "2")] ∧
      d.children ⟨1⟩ = [⟨4⟩, ⟨5⟩] ∧ d.orderIndex ⟨5⟩ = 5 := by
  intro trees
  have h : EverywhereIn WellNamed trees := by
    refine ⟨⟨⟨?_, ?_, ?_, ?_⟩, trivial, trivial, trivial⟩, trivial⟩
    · decide
    · decide
    · decide
    · simp [Distinct]
  obtain ⟨d, hd, -, -, -, -, -, hindex⟩ := trees_imported h
  obtain rfl : ofTrees trees = d := Except.ok.inj ((addTrees_eq_ofTrees h).symm.trans hd)
  exact ⟨h, _, hd, by decide +kernel, by decide +kernel, by decide +kernel,
    (hindex ⟨5⟩ (by decide +kernel)).1⟩

end Document
end XPath
