import XPath.Document.Layout
import XPath.Proofs.Document.Reachable
/-! Attributes by name. An element has at most one attribute of a name in each namespace. Setting
looks for the name and the namespace, while reading and removing look for the written name alone and
take the first attribute that has it. -/
namespace XPath
set_option autoImplicit false

/-- Splitting a name loses nothing. -/
theorem QName.text_ofText (text : String) : (QName.ofText text).text = text := by
  have hsplit := List.takeWhile_append_dropWhile (p := (· != ':')) (l := text.toList)
  have hcolon := List.head?_dropWhile_not (· != ':') text.toList
  simp only [QName.ofText]
  split
  · next first before colon last after hbefore hafter =>
    rw [hafter] at hcolon hsplit
    rw [hbefore] at hsplit
    obtain rfl : colon = ':' := by simpa using hcolon
    exact String.toList_inj.mp (by simpa [QName.text] using hsplit)
  · rfl

namespace Document

variable {d d' : Document} {element x a b id : NodeId} {name other : String} {uri : Option String}
  {value : String} {r : Option NodeId}

/-! ## Reading -/

/-- The attributes of an element with the given written name, in order. -/
def attributesNamed (d : Document) (element : NodeId) (name : String) : List NodeId :=
  (d.attributes element).filter fun id => (d.name? id).map QName.text == some name

/-- The value of an attribute node. -/
def attributeValue? (d : Document) (id : NodeId) : Option String :=
  match d.kind? id with
  | some (.attribute _ _ value) => some value
  | _ => none

theorem name?_of_kind? {qname : QName} (hk : d.kind? a = some (.attribute qname uri value)) :
    d.name? a = some qname := by
  rw [name?, hk]
  rfl

theorem name?_congr (hk : d'.kind? a = d.kind? a) : d'.name? a = d.name? a := by
  rw [name?, hk, name?]

theorem mem_attributesNamed : a ∈ d.attributesNamed element name ↔
    a ∈ d.attributes element ∧ (d.name? a).map QName.text = some name := by
  rw [attributesNamed, List.mem_filter, beq_iff_eq]

theorem nodup_attributesNamed (h : d.WellFormed) : (d.attributesNamed element name).Nodup :=
  (h.nodup_attributes element).filter _

theorem attributeNode?_eq : d.attributeNode? element name =
    (d.attributesNamed element name).head? := by
  have hname : ∀ id, (d.kind? id).bind NodeKind.qualifiedName? = (d.name? id).map QName.text := by
    intro id
    cases hk : d.kind? id <;> simp [name?, hk, NodeKind.qualifiedName?]
  simp only [attributeNode?, attributesNamed, List.head?_filter, hname]

theorem named_of_attributeNode? (h : d.attributeNode? element name = some a) :
    a ∈ d.attributesNamed element name := by
  rw [attributeNode?_eq] at h
  exact List.mem_of_mem_head? h

theorem attribute?_eq : d.attribute? element name =
    (d.attributesNamed element name).head?.bind d.attributeValue? := by
  rw [← attributeNode?_eq]
  rfl

theorem attributesNamed_congr (hattributes : d'.attributes x = d.attributes x)
    (hname : ∀ a ∈ d.attributes x, d'.name? a = d.name? a) :
    d'.attributesNamed x other = d.attributesNamed x other := by
  rw [attributesNamed, hattributes]
  exact List.filter_congr fun a ha => by rw [hname a ha]

/-! ## Keys -/

/-- The name and the namespace of a node. -/
def key (d : Document) (id : NodeId) : Option QName × Option String := (d.name? id, d.uri? id)

theorem key_of_kind? {qname : QName} (hk : d.kind? a = some (.attribute qname uri value)) :
    d.key a = (some qname, uri) := by
  rw [key, name?, uri?, hk]
  rfl

theorem key_congr (hk : d'.kind? a = d.kind? a) : d'.key a = d.key a := by
  rw [key, name?, uri?, hk, key, name?, uri?]

/-- The attributes of an element are told apart by their names and namespaces. -/
structure Keyed (d : Document) : Prop where
  /-- A name is split where its text is. -/
  ofText_text : ∀ a name uri value, d.kind? a = some (.attribute name uri value) →
    QName.ofText name.text = name
  eq_of_key : ∀ element a b, a ∈ d.attributes element → b ∈ d.attributes element →
    d.key a = d.key b → a = b

theorem WellFormed.kind?_of_mem_attributes (h : d.WellFormed) (ha : a ∈ d.attributes element) :
    ∃ name value, d.kind? a = some (.attribute name (d.uri? a) value) := by
  obtain ⟨name, uri, value, hkind⟩ := isAttribute_iff.mp (h.isAttribute_of_mem_attributes ha)
  have huri : d.uri? a = uri := congrArg Prod.snd (key_of_kind? hkind)
  exact ⟨name, value, huri ▸ hkind⟩

/-- No attribute is new or has another name. -/
def KeepsNames (d d' : Document) : Prop :=
  ∀ a name uri value, d'.kind? a = some (.attribute name uri value) →
    ∃ old, d.kind? a = some (.attribute name uri old)

theorem KeepsNames.of_eq (h : ∀ x, d'.kind? x = d.kind? x) : d.KeepsNames d' :=
  fun a _ _ value ha => ⟨value, (h a).symm.trans ha⟩

theorem keepsNames_create {kind : NodeKind} (hkind : kind.isAttribute = false) :
    d.KeepsNames (d.create kind).1 := by
  intro a name uri value ha
  rw [kind?_create] at ha
  split at ha
  · obtain rfl := Option.some.inj ha
    cases hkind
  · exact ⟨value, ha⟩

theorem keepsNames_update_kind {kind kind' : NodeKind} (hk : d.kind? id = some kind)
    (hkind : ∀ name uri value, kind' = .attribute name uri value →
      ∃ old, kind = .attribute name uri old) :
    d.KeepsNames (d.update id fun node => { node with kind := kind' }) := by
  intro a name uri value ha
  rw [kind?_update_kind _ (lt_size_of_kind? hk)] at ha
  split at ha
  · next hid =>
    obtain ⟨old, rfl⟩ := hkind name uri value (Option.some.inj ha)
    exact ⟨old, hid ▸ hk⟩
  · exact ⟨value, ha⟩

theorem Keyed.changed (h : d.Keyed) : d.changed.Keyed := ⟨h.ofText_text, h.eq_of_key⟩

theorem Keyed.of_keepsNames (h : d.Keyed) (hd' : d'.WellFormed) (hnames : d.KeepsNames d')
    (hattributes : ∀ x, ∀ a ∈ d'.attributes x, a ∈ d.attributes x) : d'.Keyed where
  ofText_text a name uri value ha := by
    obtain ⟨old, hold⟩ := hnames a name uri value ha
    exact h.ofText_text a name uri old hold
  eq_of_key element a b ha hb hkey := by
    have hold : ∀ c ∈ d'.attributes element, d'.key c = d.key c := by
      intro c hc
      obtain ⟨name, value, hkind⟩ := hd'.kind?_of_mem_attributes hc
      obtain ⟨old, hold⟩ := hnames c name _ value hkind
      rw [key_of_kind? hkind, key_of_kind? hold]
    rw [hold a ha, hold b hb] at hkey
    exact h.eq_of_key element a b (hattributes _ a ha) (hattributes _ b hb) hkey

theorem WellFormed.key_ne_of_sameAttribute? (h : d.WellFormed) {qname : QName}
    (hnone : d.sameAttribute? element qname uri = none) (ha : a ∈ d.attributes element) :
    d.key a ≠ (some qname, uri) := by
  obtain ⟨name, value, hkind⟩ := h.kind?_of_mem_attributes ha
  rw [key_of_kind? hkind]
  intro hkey
  obtain ⟨hname, huri⟩ := Prod.mk.injEq .. ▸ hkey
  obtain rfl := Option.some.inj hname
  exact kind?_ne_of_sameAttribute? hnone ha (huri ▸ hkind)

/-- An element gets another attribute only if it has none with the name and namespace. -/
theorem Keyed.createAttribute (h : d.Keyed) (hwf : d.WellFormed) (helement : d.isElement element)
    (hnone : d.sameAttribute? element (.ofText name) uri = none) :
    (d.createAttribute element (.attribute (.ofText name) uri value)).1.Keyed where
  ofText_text a name' uri' value' ha := by
    rw [kind?_createAttribute] at ha
    split at ha
    · obtain ⟨rfl, -, -⟩ := NodeKind.attribute.injEq .. ▸ Option.some.inj ha
      rw [QName.text_ofText]
    · exact h.ofText_text a name' uri' value' ha
  eq_of_key x a b ha hb hkey := by
    set d' := (d.createAttribute element (.attribute (.ofText name) uri value)).1 with hd'
    have hold : ∀ y, ∀ c ∈ d.attributes y, d'.key c = d.key c := fun y c hc =>
      key_congr (hwf.kind?_createAttribute_of_mem hc)
    have hother : ∀ c ∈ d.attributes element, d'.key c ≠ d'.key ⟨d.size⟩ := by
      intro c hc
      rw [hold _ c hc, key_of_kind? kind?_createAttribute_self]
      exact hwf.key_ne_of_sameAttribute? hnone hc
    rw [hd', attributes_createAttribute
      (lt_size_of_isContainer (isContainer_of_isElement helement))] at ha hb
    by_cases hx : x = element
    · rw [if_pos hx, List.mem_append, List.mem_singleton] at ha hb
      rcases ha with ha | rfl <;> rcases hb with hb | rfl
      · rw [hold _ a ha, hold _ b hb] at hkey
        exact h.eq_of_key element a b ha hb hkey
      · exact absurd hkey (hother a ha)
      · exact absurd hkey.symm (hother b hb)
      · rfl
    · rw [if_neg hx] at ha hb
      rw [hold _ a ha, hold _ b hb] at hkey
      exact h.eq_of_key x a b ha hb hkey

theorem keyed_empty : Document.empty.Keyed where
  ofText_text a name uri value ha := by
    obtain ⟨n⟩ := a
    cases n <;> simp [kind?, node?, Document.empty, Node.ofKind] at ha
  eq_of_key element a b ha := by
    obtain ⟨n⟩ := element
    cases n <;> simp [attributes, node?, Document.empty, Node.ofKind] at ha

theorem Keyed.create (h : d.Keyed) (hwf : d.WellFormed) {kind : NodeKind}
    (hdocument : kind ≠ .document) (hattribute : kind.isAttribute = false) :
    (d.create kind).1.Keyed := by
  refine h.of_keepsNames (hwf.create hdocument) (keepsNames_create hattribute) fun x a ha => ?_
  rwa [attributes_create] at ha

theorem Keyed.replaceValue (h : d.Keyed) (hwf : d.WellFormed) {qname : QName}
    (hsame : d.sameAttribute? element qname uri = some id) :
    (d.update id fun node => { node with kind := .attribute qname uri value }).Keyed := by
  obtain ⟨old, hold⟩ := kind?_of_sameAttribute? hsame
  have hattribute := hwf.isAttribute_of_mem_attributes (mem_of_sameAttribute? hsame)
  refine h.of_keepsNames (hwf.update_attribute hattribute) ?_ fun x a ha => by simpa using ha
  refine keepsNames_update_kind hold fun name' uri' value' hkind => ?_
  obtain ⟨rfl, rfl, -⟩ := NodeKind.attribute.injEq .. ▸ hkind
  exact ⟨old, rfl⟩

theorem Keyed.buildStep (h : d.Keyed) (hwf : d.WellFormed) (hs : d.BuildStep d') : d'.Keyed := by
  have hwf' := hs.wellFormed hwf
  cases hs with
  | child hcontainer hdocument hattribute =>
    refine (h.create hwf hdocument hattribute).of_keepsNames hwf' (.of_eq fun x => ?_)
      fun x a ha => ?_
    · simp [createChild_eq]
    · simpa [createChild_eq] using ha
  | put hput =>
    obtain ⟨helement, ⟨-, hsame, rfl⟩ | ⟨-, hnone, rfl⟩⟩ := putAttribute_cases hput
    · exact h.replaceValue hwf hsame
    · exact h.createAttribute hwf helement hnone

theorem Keyed.editStep (h : d.Keyed) (hwf : d.WellFormed) (hs : d.EditStep d') : d'.Keyed := by
  have hwf' := hs.wellFormed hwf
  cases hs with
  | nothing => exact h
  | create hdocument hattribute => exact h.create hwf hdocument hattribute
  | move _ _ _ =>
    exact h.of_keepsNames hwf' (.of_eq fun x => by simp) fun x a ha => by simpa using ha
  | removeChild _ =>
    exact h.of_keepsNames hwf' (.of_eq fun x => by simp) fun x a ha => by simpa using ha
  | setValue hsame => exact h.replaceValue hwf hsame
  | addAttribute helement hnone => exact (h.createAttribute hwf helement hnone).changed
  | removeAttribute hmem =>
    have hlt := hwf.parent_lt_size (hwf.isParent_of_mem_attributes hmem)
    refine h.of_keepsNames hwf' (.of_eq fun x => by simp) fun x b hb => ?_
    rw [attributes_changed, attributes_detachAttribute hlt] at hb
    split at hb
    · next hx => exact hx ▸ List.mem_of_mem_filter hb
    · exact hb
  | @setData id kind kind' data hk hdata =>
    refine h.of_keepsNames hwf' (keepsNames_update_kind hk fun name uri value hkind => ?_)
      fun x a ha => by simpa using ha
    subst hkind
    cases kind <;> cases hdata

theorem Builds.keyed (h : d.Keyed) (hwf : d.WellFormed) (hb : d.Builds d') : d'.Keyed := by
  induction hb with
  | refl => exact h
  | tail hb hs ih => exact ih.buildStep (Builds.grows hwf hb).1 hs

theorem Reachable.keyed (h : d.Reachable) : d.Keyed := by
  induction h with
  | empty => exact keyed_empty
  | imported he => exact (builds_imported he).keyed keyed_empty wellFormed_empty
  | edited edit hd ih => exact ih.editStep hd.wellFormed (hd.wellFormed.editStep_after edit)

/-! ## Setting -/

theorem Keyed.kind?_of_named (h : d.Keyed) (hwf : d.WellFormed)
    (ha : a ∈ d.attributesNamed element name) :
    ∃ value, d.kind? a = some (.attribute (.ofText name) (d.uri? a) value) := by
  obtain ⟨hmem, hname⟩ := mem_attributesNamed.mp ha
  obtain ⟨qname, value, hkind⟩ := hwf.kind?_of_mem_attributes hmem
  rw [name?_of_kind? hkind, Option.map_some, Option.some.injEq] at hname
  have hsplit := h.ofText_text a qname _ value hkind
  rw [hname] at hsplit
  exact ⟨value, hsplit ▸ hkind⟩

theorem attribute?_update {qname : QName} {old : String}
    (hk : d.kind? id = some (.attribute qname uri old)) :
    (d.update id fun node => { node with kind := .attribute qname uri value }).attribute? x other =
      if d.attributeNode? x other = some id then some value else d.attribute? x other := by
  have hkind : ∀ a, (d.update id fun node =>
      { node with kind := .attribute qname uri value }).kind? a = _ :=
    fun a => kind?_update_kind _ (lt_size_of_kind? hk)
  have hname : ∀ a, (d.update id fun node =>
      { node with kind := .attribute qname uri value }).name? a = d.name? a := by
    intro a
    rw [name?, hkind]
    split
    · next ha => rw [ha, name?_of_kind? hk]; rfl
    · rfl
  rw [attribute?_eq, attributesNamed_congr attributes_update_kind fun a _ => hname a, attribute?_eq,
    attributeNode?_eq]
  cases hhead : (d.attributesNamed x other).head? with
  | none => simp
  | some a =>
    rw [Option.bind_some, Option.bind_some, attributeValue?, hkind]
    by_cases ha : a = id
    · rw [if_pos ha, if_pos (congrArg some ha)]
    · rw [if_neg ha, if_neg fun h => ha (Option.some.inj h)]
      rfl

section Create

variable {qname : QName} (hwf : d.WellFormed) (helement : d.isElement element)
include hwf helement

theorem attributesNamed_createAttribute :
    (d.createAttribute element (.attribute qname uri value)).1.attributesNamed x other =
      d.attributesNamed x other ++
        if x = element ∧ other = qname.text then [⟨d.size⟩] else [] := by
  set d' := (d.createAttribute element (.attribute qname uri value)).1 with hd'
  have hname : ∀ y, ∀ a ∈ d.attributes y, d'.name? a = d.name? a := fun y a ha =>
    name?_congr (hwf.kind?_createAttribute_of_mem ha)
  have hnew : d'.name? ⟨d.size⟩ = some qname := name?_of_kind? kind?_createAttribute_self
  have hattributes : d'.attributes x = _ := attributes_createAttribute
    (lt_size_of_isContainer (isContainer_of_isElement helement))
  by_cases hx : x = element
  · rw [if_pos hx] at hattributes
    have hfilter : (d.attributes element).filter
        (fun id => (d'.name? id).map QName.text == some other) =
          d.attributesNamed element other :=
      List.filter_congr fun a ha => by rw [hname element a ha]
    rw [attributesNamed, hattributes, List.filter_append, hfilter, hx, List.filter_singleton, hnew,
      Option.map_some]
    by_cases hother : other = qname.text
    · simp [hother]
    · have hne : (qname.text == other) = false := beq_eq_false_iff_ne.mpr (Ne.symm hother)
      simp [hother, hne]
  · rw [if_neg hx] at hattributes
    simp [hx, attributesNamed_congr hattributes (hname x)]

theorem attribute?_createAttribute :
    (d.createAttribute element (.attribute qname uri value)).1.attribute? x other =
      if x = element ∧ other = qname.text ∧ d.attributeNode? element other = none then some value
      else d.attribute? x other := by
  rw [attribute?_eq, attributesNamed_createAttribute hwf helement, attribute?_eq, attributeNode?_eq]
  cases hfirst : d.attributesNamed x other with
  | nil =>
    by_cases hadded : x = element ∧ other = qname.text
    · rw [if_pos hadded, if_pos ⟨hadded.1, hadded.2, by rw [← hadded.1, hfirst]; rfl⟩]
      simp [attributeValue?, kind?_createAttribute_self]
    · rw [if_neg hadded, if_neg fun h => hadded ⟨h.1, h.2.1⟩]
      rfl
  | cons a rest =>
    have ha : a ∈ d.attributes x := (mem_attributesNamed.mp (hfirst ▸ List.mem_cons_self)).1
    have hfound : ¬ (x = element ∧ other = qname.text ∧
        (d.attributesNamed element other).head? = none) := by
      rintro ⟨rfl, -, hnone⟩
      simp [hfirst] at hnone
    rw [if_neg hfound]
    simp [attributeValue?, hwf.kind?_createAttribute_of_mem ha]

end Create

theorem Keyed.attributeNode?_eq_some_iff (h : d.Keyed) (hwf : d.WellFormed)
    (hsame : d.sameAttribute? element (.ofText name) uri = some id) :
    d.attributeNode? x other = some id ↔
      x = element ∧ other = name ∧ (d.attributeNode? element name).all (d.uri? · == uri) := by
  obtain ⟨value, hkind⟩ := kind?_of_sameAttribute? hsame
  have hid := mem_of_sameAttribute? hsame
  have hname := name?_of_kind? hkind
  have huri : d.uri? id = uri := congrArg Prod.snd (key_of_kind? hkind)
  constructor
  · intro hx
    obtain ⟨hmem, hother⟩ := mem_attributesNamed.mp (named_of_attributeNode? hx)
    obtain rfl := (hwf.isParent_of_mem_attributes hmem).unique (hwf.isParent_of_mem_attributes hid)
    obtain rfl : name = other := by simpa [hname, QName.text_ofText] using hother
    simp [hx, huri]
  · rintro ⟨rfl, rfl, hall⟩
    cases ha : d.attributeNode? x other with
    | none =>
      rw [attributeNode?_eq, List.head?_eq_none_iff] at ha
      have hnamed : id ∈ d.attributesNamed x other :=
        mem_attributesNamed.mpr ⟨hid, by simp [hname, QName.text_ofText]⟩
      simp [ha] at hnamed
    | some a =>
      obtain ⟨old, hold⟩ := h.kind?_of_named hwf (named_of_attributeNode? ha)
      have hauri : d.uri? a = uri := by simpa [ha] using hall
      rw [h.eq_of_key x a id (mem_of_attributeNode? ha) hid
        (by rw [key_of_kind? hold, key_of_kind? hkind, hauri])]

/-- What reading gives after setting: the value that was set, unless another attribute with the
written name stands first. -/
theorem Keyed.attribute?_setAttribute (h : d.Keyed) (hwf : d.WellFormed)
    (he : d.setAttribute element name uri value = .ok (d', id)) :
    d'.attribute? x other =
      if x = element ∧ other = name ∧ (d.attributeNode? element name).all (d.uri? · == uri) then
        some value
      else d.attribute? x other := by
  obtain ⟨helement, ⟨hsame, rfl⟩ | ⟨hnone, rfl⟩⟩ := setAttribute_cases he
  · obtain ⟨old, hold⟩ := kind?_of_sameAttribute? hsame
    rw [attribute?_update hold]
    simp only [h.attributeNode?_eq_some_iff hwf hsame]
  · have hfirst : d.attributeNode? element name = none ↔
        (d.attributeNode? element name).all (d.uri? · == uri) := by
      cases ha : d.attributeNode? element name with
      | none => simp
      | some a =>
        obtain ⟨old, hold⟩ := h.kind?_of_named hwf (named_of_attributeNode? ha)
        have hne : d.uri? a ≠ uri := fun huri =>
          kind?_ne_of_sameAttribute? hnone (mem_of_attributeNode? ha) (huri ▸ hold)
        simp [hne]
    have hread : (d.createAttribute element (.attribute (.ofText name) uri value)).1.attribute? x
        other = _ := attribute?_createAttribute hwf helement
    rw [QName.text_ofText] at hread
    have hadded : (x = element ∧ other = name ∧ d.attributeNode? element other = none) ↔
        x = element ∧ other = name ∧ (d.attributeNode? element name).all (d.uri? · == uri) := by
      refine and_congr_right fun _ => and_congr_right fun hother => ?_
      rw [hother, hfirst]
    exact hread.trans (if_congr hadded rfl rfl)

/-! ## Removing -/

theorem attributesNamed_removeAttribute (hwf : d.WellFormed)
    (he : d.removeAttribute element name = .ok (d', r)) :
    d'.attributesNamed x other =
      if x = element ∧ other = name then (d.attributesNamed element name).tail
      else d.attributesNamed x other := by
  obtain ⟨hnone, rfl⟩ | ⟨a, ha, rfl⟩ := removeAttribute_cases he
  · rw [attributeNode?_eq, List.head?_eq_none_iff] at hnone
    split
    · next h => rw [h.1, h.2, hnone, List.tail_nil]
    · rfl
  · have hnamed := mem_attributesNamed.mp (named_of_attributeNode? ha)
    have hlt := hwf.parent_lt_size (hwf.isParent_of_mem_attributes hnamed.1)
    set d' := (d.detachAttribute element a).changed with hd'
    have hname : ∀ b, d'.name? b = d.name? b := fun b => name?_congr (by simp [hd'])
    have hattributes : d'.attributes x = _ := attributes_detachAttribute hlt
    by_cases hx : x = element
    · rw [if_pos hx] at hattributes
      have hkept : d'.attributesNamed x other = (d.attributesNamed element other).erase a := by
        rw [(nodup_attributesNamed hwf).erase_eq_filter]
        simp only [attributesNamed, hattributes, hname, List.filter_filter, Bool.and_comm]
      by_cases hother : other = name
      · rw [attributeNode?_eq] at ha
        obtain ⟨rest, hrest⟩ := List.head?_eq_some_iff.mp ha
        rw [hkept, if_pos ⟨hx, hother⟩, hother, hrest, List.erase_cons_head, List.tail_cons]
      · rw [hkept, if_neg fun h => hother h.2, hx]
        refine List.erase_of_not_mem fun hmem => hother ?_
        exact Option.some.inj ((mem_attributesNamed.mp hmem).2.symm.trans hnamed.2)
    · rw [if_neg hx] at hattributes
      rw [if_neg fun h => hx h.1, attributesNamed_congr hattributes fun b _ => hname b]

theorem attribute?_removeAttribute (hwf : d.WellFormed)
    (he : d.removeAttribute element name = .ok (d', r)) :
    d'.attribute? x other =
      if x = element ∧ other = name then (d.attributesNamed element name)[1]?.bind d.attributeValue?
      else d.attribute? x other := by
  have hvalue : d'.attributeValue? = d.attributeValue? := by
    obtain ⟨-, rfl⟩ | ⟨a, -, rfl⟩ := removeAttribute_cases he
    · rfl
    · funext id
      simp [attributeValue?]
  rw [attribute?_eq, attributesNamed_removeAttribute hwf he, hvalue]
  split
  · rw [List.head?_tail]
  · rw [attribute?_eq]

/-- The attributes of an element with one written name differ in their namespaces, and the first of
them stands for the name. A value that is set is read if the first one has the namespace for which
it is set; the removal of a name uncovers the second. Where all attributes of the name are in no
namespace, there is at most one, and the name has the value last set and none once it is removed.
Setting and removing keep all other values. -/
theorem Reachable.attributes_by_name (h : d.Reachable) (element : NodeId) (name : String) :
    ((d.attributesNamed element name).map d.uri?).Nodup ∧
    (∀ uri value d' id, d.setAttribute element name uri value = .ok (d', id) →
      ∀ x other, d'.attribute? x other =
        if x = element ∧ other = name ∧ (d.attributeNode? element name).all (d.uri? · == uri) then
          some value
        else d.attribute? x other) ∧
    (∀ d' r, d.removeAttribute element name = .ok (d', r) →
      ∀ x other, d'.attribute? x other =
        if x = element ∧ other = name then
          (d.attributesNamed element name)[1]?.bind d.attributeValue?
        else d.attribute? x other) ∧
    ((∀ a ∈ d.attributesNamed element name, d.uri? a = none) →
      (∀ value d' id, d.setAttribute element name none value = .ok (d', id) →
        d'.attribute? element name = some value) ∧
      ∀ d' r, d.removeAttribute element name = .ok (d', r) →
        d'.attribute? element name = none) := by
  have hwf := h.wellFormed
  have hkeyed := h.keyed
  have hdistinct : ((d.attributesNamed element name).map d.uri?).Nodup := by
    refine List.Nodup.map_on (fun a ha b hb huri => ?_) (nodup_attributesNamed hwf)
    obtain ⟨_, hkind⟩ := hkeyed.kind?_of_named hwf ha
    obtain ⟨_, hkind'⟩ := hkeyed.kind?_of_named hwf hb
    exact hkeyed.eq_of_key element a b (mem_attributesNamed.mp ha).1 (mem_attributesNamed.mp hb).1
      (by rw [key_of_kind? hkind, key_of_kind? hkind', huri])
  refine ⟨hdistinct, fun uri value d' id he x other => hkeyed.attribute?_setAttribute hwf he,
    fun d' r he x other => attribute?_removeAttribute hwf he, fun hnone => ⟨?_, ?_⟩⟩
  · intro value d' id he
    have hfirst : (d.attributeNode? element name).all (d.uri? · == none) := by
      cases ha : d.attributeNode? element name with
      | none => rfl
      | some a => simp [hnone a (named_of_attributeNode? ha)]
    rw [hkeyed.attribute?_setAttribute hwf he, if_pos ⟨rfl, rfl, hfirst⟩]
  · intro d' r he
    rw [attribute?_removeAttribute hwf he, if_pos ⟨rfl, rfl⟩]
    cases hnamed : d.attributesNamed element name with
    | nil => rfl
    | cons first rest =>
      cases rest with
      | nil => rfl
      | cons second rest =>
        rw [hnamed] at hdistinct hnone
        have hsame : d.uri? first = d.uri? second :=
          (hnone first (by simp)).trans (hnone second (by simp)).symm
        simp [hsame] at hdistinct

/-- The attribute that was imported with the document is in a namespace, stands first and keeps its
value, which is read instead of the one just set. It is removed first too, which uncovers the other
one. A name that has no attribute in a namespace reads as it was set. -/
theorem attributes_by_name_of_hidden :
    let trees : List Markup.Tree := [.element (.plain "a") none []
      [⟨⟨some "xml", "lang"⟩, some Markup.xmlUri, "en"⟩, ⟨.plain "id", none, "0"⟩] []]
    let d := ofTrees trees
    let set := Edit.afterAll d [.setAttribute ⟨1⟩ "xml:lang" none "fr"]
    let removed := Edit.afterAll set [.removeAttribute ⟨1⟩ "xml:lang"]
    let renamed := Edit.afterAll d [.setAttribute ⟨1⟩ "id" none "1"]
    addTrees root .empty trees = .ok d ∧
      d.Reachable ∧ d.setAttribute ⟨1⟩ "xml:lang" none "fr" = .ok (set, ⟨4⟩) ∧
      set.attribute? ⟨1⟩ "xml:lang" = some "en" ∧
      set.Reachable ∧ set.removeAttribute ⟨1⟩ "xml:lang" = .ok (removed, some ⟨2⟩) ∧
      removed.attribute? ⟨1⟩ "xml:lang" = some "fr" ∧
      (∀ a ∈ d.attributesNamed ⟨1⟩ "id", d.uri? a = none) ∧
      d.setAttribute ⟨1⟩ "id" none "1" = .ok (renamed, ⟨3⟩) ∧
      renamed.attribute? ⟨1⟩ "id" = some "1" := by
  intro trees d set removed renamed
  have hd : addTrees root .empty trees = .ok d := by decide
  have h : d.Reachable := .imported hd
  have h' : set.Reachable := h.afterAll _
  have hset : d.setAttribute ⟨1⟩ "xml:lang" none "fr" = .ok (set, ⟨4⟩) := by decide
  have hremove : set.removeAttribute ⟨1⟩ "xml:lang" = .ok (removed, some ⟨2⟩) := by decide
  have hnone : ∀ a ∈ d.attributesNamed ⟨1⟩ "id", d.uri? a = none := by decide
  have hrename : d.setAttribute ⟨1⟩ "id" none "1" = .ok (renamed, ⟨3⟩) := by decide
  have hfirst : (d.attributeNode? ⟨1⟩ "xml:lang").all (d.uri? · == none) = false := by decide
  have hsecond : (set.attributesNamed ⟨1⟩ "xml:lang")[1]?.bind set.attributeValue? = some "fr" := by
    decide
  have hold : d.attribute? ⟨1⟩ "xml:lang" = some "en" := by decide
  obtain ⟨-, hreadSet, -⟩ := h.attributes_by_name ⟨1⟩ "xml:lang"
  obtain ⟨-, -, hreadRemoved, -⟩ := h'.attributes_by_name ⟨1⟩ "xml:lang"
  obtain ⟨-, -, -, hreadPlain⟩ := h.attributes_by_name ⟨1⟩ "id"
  refine ⟨hd, h, hset, ?_, h', hremove, ?_, hnone, hrename, (hreadPlain hnone).1 _ _ _ hrename⟩
  · rw [hreadSet _ _ _ _ hset, hfirst, hold]
    rfl
  · rw [hreadRemoved _ _ hremove, if_pos ⟨rfl, rfl⟩, hsecond]

end Document
end XPath
