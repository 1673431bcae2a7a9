import Mathlib.Logic.Function.Iterate
import XPath.Document.History
import XPath.Proofs.Document.Edit
/-! Every document that callers can have is well-formed: a new one is, an import builds one node
after the other and keeps it so, and every edit keeps it so. -/
namespace XPath.Document
set_option autoImplicit false

variable {d d' : Document} {p c x id element : NodeId}

theorem wellFormed_empty : Document.empty.WellFormed := by
  have hnode : ∀ x, Document.empty.node? x =
      if x = root then some (.ofKind .document) else none := by
    rintro ⟨n⟩
    cases n <;> simp [node?, Document.empty, root]
  have hparent : ∀ x, Document.empty.parent? x = none := by
    intro x
    rw [parent?, hnode]
    split <;> rfl
  have hchildren : ∀ x, Document.empty.children x = [] := by
    intro x
    rw [children, hnode]
    split <;> rfl
  have hattributes : ∀ x, Document.empty.attributes x = [] := by
    intro x
    rw [attributes, hnode]
    split <;> rfl
  refine ⟨?_, ?_, ?_, ?_, ?_, ?_, ⟨fun x => Acc.intro x fun y hy => ?_⟩⟩
  · simp [hchildren, hattributes, IsParent, hparent]
  · simp [hchildren]
  · simp [hattributes]
  · simp [hchildren]
  · simp [hattributes]
  · intro x
    rw [kind?, hnode]
    split <;> simp_all [Node.ofKind]
  · exact absurd ((hparent x).symm.trans hy) (by simp)

/-! ## Importing -/

section Import

open Markup

variable {bindings : List Binding} {attributes : List TreeAttribute}

/-- One step of building a document adds a last child or puts an attribute. -/
inductive BuildStep (d : Document) : Document → Prop
  | child {p : NodeId} {kind : NodeKind} : d.isContainer p → kind ≠ .document →
      kind.isAttribute = false → BuildStep d (d.createChild p kind).1
  | put {d' : Document} {element id : NodeId} {name : String} {uri : Option String}
      {value : String} {added : Bool} :
      d.putAttribute element name uri value = .ok (d', id, added) → BuildStep d d'

/-- Building goes step by step. -/
def Builds : Document → Document → Prop := Relation.ReflTransGen BuildStep

theorem keepsKinds_putAttribute {name : String} {uri : Option String} {value : String}
    {added : Bool} (h : d.WellFormed)
    (he : d.putAttribute element name uri value = .ok (d', id, added)) : d.KeepsKinds d' := by
  obtain ⟨-, ⟨-, hsame, rfl⟩ | ⟨-, -, rfl⟩⟩ := putAttribute_cases he
  · obtain ⟨_, _, _, hk⟩ :=
      isAttribute_iff.mp (h.isAttribute_of_mem_attributes (mem_of_sameAttribute? hsame))
    exact keepsKinds_update_kind hk ⟨rfl, rfl, by simp⟩
  · have hkinds : d.KeepsKinds (d.create (.attribute (.ofText name) uri value)).1 :=
      keepsKinds_create (by simp)
    refine hkinds.trans (.of_eq fun x => ?_)
    simp [createAttribute_eq]

theorem BuildStep.keepsKinds (h : d.WellFormed) (hs : d.BuildStep d') : d.KeepsKinds d' := by
  cases hs with
  | child hcontainer hdocument hattribute =>
    refine (keepsKinds_create hdocument).trans (.of_eq fun x => ?_)
    simp [createChild_eq]
  | put hput => exact keepsKinds_putAttribute h hput

theorem BuildStep.wellFormed (h : d.WellFormed) (hs : d.BuildStep d') : d'.WellFormed := by
  cases hs with
  | child hcontainer hdocument hattribute => exact h.createChild hcontainer hdocument hattribute
  | put hput => exact h.putAttribute hput

/-- Building keeps the invariant and the part that every node plays. -/
theorem Builds.grows (h : d.WellFormed) (hb : d.Builds d') : d'.WellFormed ∧ d.KeepsKinds d' := by
  induction hb with
  | refl => exact ⟨h, .of_eq fun _ => rfl⟩
  | tail _ hs ih => exact ⟨hs.wellFormed ih.1, ih.2.trans (hs.keepsKinds ih.1)⟩

theorem builds_addAttributes (he : d.addAttributes element bindings attributes = .ok d') :
    d.Builds d' := by
  induction attributes generalizing d with
  | nil =>
    simp only [addAttributes, List.foldlM_nil, pure, Except.pure, Except.ok.injEq] at he
    exact he ▸ .refl
  | cons attr rest ih =>
    unfold addAttributes at he ih
    rw [List.foldlM_cons] at he
    obtain ⟨middle, hmiddle, hrest⟩ := bind_eq_ok he
    obtain ⟨⟨_, _, _⟩, hput, hresult⟩ := bind_eq_ok hmiddle
    obtain rfl := Except.ok.inj hresult
    exact .head (.put hput) (ih hrest)

theorem isContainer_createChild_self (d : Document) (p : NodeId) (name : QName)
    (uri : Option String) :
    (d.createChild p (.element name uri)).1.isContainer ⟨d.size⟩ := by
  simp [createChild_eq, isContainer, kind?_create_self, NodeKind.isContainer]

-- The induction is on the tree; what a parent is stays known while its content is added.
mutual

theorem builds_addTree {p : NodeId} {d d' : Document} (h : d.WellFormed)
    (hcontainer : d.isContainer p) (tree : Tree) (he : addTree p d tree = .ok d') :
    d.Builds d' := by
  cases tree with
  | element name uri bindings attributes children =>
    rw [addTree] at he
    have hchild : d.BuildStep
        (d.createChild p (.element (nameIn bindings uri name.localPart) uri)).1 :=
      .child hcontainer (by simp) rfl
    have hself := d.isContainer_createChild_self p (nameIn bindings uri name.localPart) uri
    obtain ⟨middle, hmiddle, hrest⟩ := bind_eq_ok he
    have hattributes := builds_addAttributes hmiddle
    obtain ⟨hwf, hkinds⟩ := hattributes.grows (hchild.wellFormed h)
    have hcontent := builds_addTrees hwf (hkinds.isContainer hself) children hrest
    exact .head hchild (hattributes.trans hcontent)
  | text data =>
    rw [addTree, Except.ok.injEq] at he
    exact he ▸ .single (.child hcontainer (by simp) rfl)
  | comment data =>
    rw [addTree, Except.ok.injEq] at he
    exact he ▸ .single (.child hcontainer (by simp) rfl)
  | instruction target data =>
    rw [addTree, Except.ok.injEq] at he
    exact he ▸ .single (.child hcontainer (by simp) rfl)

theorem builds_addTrees {p : NodeId} {d d' : Document} (h : d.WellFormed)
    (hcontainer : d.isContainer p) (trees : List Tree) (he : addTrees p d trees = .ok d') :
    d.Builds d' := by
  cases trees with
  | nil =>
    rw [addTrees, Except.ok.injEq] at he
    exact he ▸ .refl
  | cons tree rest =>
    rw [addTrees] at he
    obtain ⟨middle, hfirst, hrest⟩ := bind_eq_ok he
    have htree := builds_addTree h hcontainer tree hfirst
    obtain ⟨hwf, hkinds⟩ := htree.grows h
    exact htree.trans (builds_addTrees hwf (hkinds.isContainer hcontainer) rest hrest)

end

theorem builds_imported {trees : List Tree} (he : addTrees root .empty trees = .ok d) :
    Document.empty.Builds d :=
  builds_addTrees wellFormed_empty rfl trees he

theorem readWith?_eq_some_iff {reader : String → Option (List Tree)} {text : String} :
    readWith? reader text = some d ↔
      ∃ trees, reader text = some trees ∧ addTrees root .empty trees = .ok d := by
  rw [readWith?, Option.bind_eq_bind, Option.bind_eq_some_iff]
  refine exists_congr fun trees => and_congr_right fun _ => ?_
  cases addTrees root .empty trees <;> simp [Except.toOption]

/-- Whatever the reader, a document that was read from a text is one that callers can have. -/
theorem reachable_of_readWith? {reader : String → Option (List Tree)} {text : String}
    (he : readWith? reader text = some d) : d.Reachable := by
  obtain ⟨trees, -, hd⟩ := readWith?_eq_some_iff.mp he
  exact .imported hd

end Import

/-! ## Editing -/

/-- What an edit does to a document. Only some of the changes are counted. -/
inductive EditStep (d : Document) : Document → Prop
  /-- The edit has failed or there is nothing to do. -/
  | nothing : EditStep d d
  | create {kind : NodeKind} : kind ≠ .document → kind.isAttribute = false →
      EditStep d (d.create kind).1
  | move {p c : NodeId} {r : Option NodeId} : d.isContainer p → d.isInsertable c →
      ¬ d.Under c p → EditStep d ((d.detach c).attach p c r).changed
  | removeChild {p c : NodeId} : c ∈ d.children p → EditStep d (d.detach c).changed
  | setValue {element id : NodeId} {name : QName} {uri : Option String} {value : String} :
      d.sameAttribute? element name uri = some id →
      EditStep d (d.update id fun node => { node with kind := .attribute name uri value })
  | addAttribute {element : NodeId} {name : String} {uri : Option String} {value : String} :
      d.isElement element → d.sameAttribute? element (.ofText name) uri = none →
      EditStep d (d.createAttribute element (.attribute (.ofText name) uri value)).1.changed
  | removeAttribute {element a : NodeId} : a ∈ d.attributes element →
      EditStep d (d.detachAttribute element a).changed
  | setData {id : NodeId} {kind kind' : NodeKind} {data : String} : d.kind? id = some kind →
      kind.withData? data = some kind' →
      EditStep d (d.update id fun node => { node with kind := kind' })

theorem WellFormed.editStep_insertBefore (h : d.WellFormed) {r : Option NodeId}
    (he : d.insertBefore p c r = .ok d') : d.EditStep d' := by
  obtain ⟨⟨hcontainer, hinsertable, hunder⟩, -, rfl⟩ := (insertBefore_eq_ok_iff h).mp he
  split
  · exact .nothing
  · exact .move hcontainer hinsertable hunder

theorem WellFormed.editStep_run (h : d.WellFormed) {edit : Edit} (he : edit.run d = .ok d') :
    d.EditStep d' := by
  cases edit with
  | createElement name uri => exact Except.ok.inj he ▸ .create (by simp) rfl
  | createText data => exact Except.ok.inj he ▸ .create (by simp) rfl
  | createComment data => exact Except.ok.inj he ▸ .create (by simp) rfl
  | createInstruction target data => exact Except.ok.inj he ▸ .create (by simp) rfl
  | appendChild parent child =>
    exact h.editStep_insertBefore (show d.insertBefore parent child none = _ from he)
  | insertBefore parent child reference => exact h.editStep_insertBefore he
  | removeChild parent child =>
    obtain ⟨hmem, rfl⟩ := (removeChild_eq_ok_iff h).mp he
    exact .removeChild hmem
  | setAttribute element name uri value =>
    obtain ⟨⟨next, id⟩, hset, hnext⟩ := bind_eq_ok he
    obtain rfl := Except.ok.inj hnext
    obtain ⟨helement, ⟨hsame, rfl⟩ | ⟨hnone, rfl⟩⟩ := setAttribute_cases hset
    · exact .setValue hsame
    · exact .addAttribute helement hnone
  | removeAttribute element name =>
    obtain ⟨⟨next, removed⟩, hremove, hnext⟩ := bind_eq_ok he
    obtain rfl := Except.ok.inj hnext
    obtain ⟨-, rfl⟩ | ⟨a, ha, rfl⟩ := removeAttribute_cases hremove
    · exact .nothing
    · exact .removeAttribute (mem_of_attributeNode? ha)
  | setText id data =>
    obtain ⟨kind, kind', hk, hdata, rfl⟩ := setText_cases he
    exact .setData hk hdata

theorem WellFormed.editStep_after (h : d.WellFormed) (edit : Edit) : d.EditStep (edit.after d) := by
  unfold Edit.after
  split
  · next he => exact h.editStep_run he
  · exact .nothing

theorem EditStep.wellFormed (h : d.WellFormed) (hs : d.EditStep d') : d'.WellFormed := by
  cases hs with
  | nothing => exact h
  | create hdocument _ => exact h.create hdocument
  | move hcontainer hinsertable hunder => exact h.move hcontainer hinsertable hunder
  | removeChild hmem => exact (h.detach (h.isAttribute_eq_false_of_mem_children hmem)).changed
  | setValue hsame =>
    exact h.update_attribute (h.isAttribute_of_mem_attributes (mem_of_sameAttribute? hsame))
  | addAttribute helement _ => exact (h.createAttribute helement rfl).changed
  | removeAttribute hmem => exact (h.detachAttribute hmem).changed
  | setData hk hdata => exact h.setData hk hdata

theorem Reachable.afterAll (h : d.Reachable) (edits : List Edit) :
    (Edit.afterAll d edits).Reachable := by
  induction edits generalizing d with
  | nil => exact h
  | cons edit rest ih => exact ih (h.edited edit)

theorem Reachable.wellFormed (h : d.Reachable) : d.WellFormed := by
  induction h with
  | empty => exact wellFormed_empty
  | imported he => exact ((builds_imported he).grows wellFormed_empty).1
  | edited edit _ ih => exact (ih.editStep_after edit).wellFormed ih

/-! ## The links of a reachable document -/

namespace WellFormed

theorem lt_size_of_mem_nodes (h : d.WellFormed) {node : Node} (hnode : node ∈ d.nodes) :
    (∀ p, node.parent = some p → p.index < d.size) ∧ (∀ c ∈ node.children, c.index < d.size) ∧
      ∀ a ∈ node.attributes, a.index < d.size := by
  obtain ⟨n, hn⟩ := Array.mem_iff_getElem?.mp hnode
  have hid : d.node? ⟨n⟩ = some node := hn
  refine ⟨fun p hp => ?_, fun c hc => ?_, fun a ha => ?_⟩
  · exact h.parent_lt_size (c := ⟨n⟩) (by simpa [IsParent, parent?, hid] using hp)
  · exact (h.isParent_of_mem_children (p := ⟨n⟩) (by simpa [children, hid] using hc)).lt_size
  · exact (h.isParent_of_mem_attributes (p := ⟨n⟩) (by simpa [attributes, hid] using ha)).lt_size

/-- A node stands in one place only: once among the children or once among the attributes. -/
theorem count_eq_one (h : d.WellFormed) (hp : d.IsParent p c) :
    (d.children p).count c + (d.attributes p).count c = 1 := by
  cases hattr : d.isAttribute c with
  | false =>
    have hmem := h.mem_children_iff.mpr ⟨hp, hattr⟩
    have hnotMem : c ∉ d.attributes p := fun ha => by
      simpa [hattr] using h.isAttribute_of_mem_attributes ha
    rw [List.count_eq_one_of_mem (h.nodup_children p) hmem, List.count_eq_zero.mpr hnotMem]
  | true =>
    have hmem := h.mem_attributes_iff.mpr ⟨hp, hattr⟩
    have hnotMem : c ∉ d.children p := fun hc => by
      simpa [hattr] using h.isAttribute_eq_false_of_mem_children hc
    rw [List.count_eq_one_of_mem (h.nodup_attributes p) hmem, List.count_eq_zero.mpr hnotMem]

theorem iterate_parent?_eq_none (h : d.WellFormed) (x : NodeId) :
    ∃ steps, (Option.bind · d.parent?)^[steps] (some x) = none := by
  induction x using h.parent_induction with
  | top x hx => exact ⟨1, hx⟩
  | below p x hp ih =>
    obtain ⟨steps, hsteps⟩ := ih
    refine ⟨steps + 1, ?_⟩
    rw [Function.iterate_succ_apply, Option.bind_some, show d.parent? x = some p from hp, hsteps]

end WellFormed

/-- The links of a reachable document stay inside of it and agree in both directions, connect nodes
of fitting kinds only, and lead from every node upwards to an end. -/
theorem Reachable.links_consistent (h : d.Reachable) :
    (∀ node ∈ d.nodes, (∀ p, node.parent = some p → p.index < d.size) ∧
      (∀ c ∈ node.children, c.index < d.size) ∧ ∀ a ∈ node.attributes, a.index < d.size) ∧
    (∀ p c, c ∈ d.children p ∨ c ∈ d.attributes p ↔ d.parent? c = some p) ∧
    (∀ p c, d.parent? c = some p → (d.children p).count c + (d.attributes p).count c = 1) ∧
    (∀ p a, a ∈ d.attributes p → d.isElement p ∧ d.isAttribute a) ∧
    (∀ p c, c ∈ d.children p → (d.kind? p = some .document ∨ d.isElement p) ∧
      d.kind? c ≠ some .document ∧ d.isAttribute c = false) ∧
    (∀ id, d.kind? id = some .document ↔ id = root) ∧
    d.parent? root = none ∧
    ∀ id, ∃ steps, (Option.bind · d.parent?)^[steps] (some id) = none := by
  have hwf := h.wellFormed
  refine ⟨fun node hnode => hwf.lt_size_of_mem_nodes hnode, hwf.linked,
    fun p c hp => hwf.count_eq_one hp, hwf.of_mem_attributes, fun p c hc => ?_, hwf.kind?_root,
    hwf.parent?_root, hwf.iterate_parent?_eq_none⟩
  obtain ⟨hcontainer, hinsertable⟩ := hwf.of_mem_children p c hc
  have hlt := (hwf.isParent_of_mem_children hc).lt_size
  exact ⟨isContainer_iff.mp hcontainer, (isInsertable_iff hlt).mp hinsertable⟩

/-- An element with an attribute inside another, which could not be put into its own content. -/
theorem links_consistent_of_failed_cycle :
    let d := Edit.afterAll .empty [.createElement "a" none, .createElement "b" none,
      .appendChild ⟨1⟩ ⟨2⟩, .appendChild root ⟨1⟩, .setAttribute ⟨2⟩ "k" none "v",
      .insertBefore ⟨2⟩ ⟨1⟩ none]
    d.Reachable ∧ d.parent? ⟨3⟩ = some ⟨2⟩ ∧
      (d.children ⟨2⟩).count ⟨3⟩ + (d.attributes ⟨2⟩).count ⟨3⟩ = 1 := by
  intro d
  have h : d.Reachable := Reachable.empty.afterAll _
  obtain ⟨-, -, hcount, -⟩ := h.links_consistent
  exact ⟨h, rfl, hcount ⟨2⟩ ⟨3⟩ rfl⟩

end XPath.Document
