import Mathlib.Data.List.Basic
import XPath.Markup.Content
import XPath.Markup.Naming
import XPath.Proofs.Parser.Result
/-! The names in the items of XML text. Whatever the parser reads as a name has parts that are not
empty and hold no colon, and so has every name of every tag and attribute. -/
namespace XPath
set_option autoImplicit false

/-! ## Values of parsers -/

namespace Parser

variable {α β : Type} {p : Parser α} {f : α → Parser β} {P Q : α → Prop} {R : β → Prop} {v : α}

/-- All values that a parser can return have a property. -/
def Yields (p : Parser α) (Q : α → Prop) : Prop :=
  ∀ s v rest, (p s).result = some (v, rest) → Q v

theorem yields_true (p : Parser α) : Yields p fun _ => True := fun _ _ _ _ => trivial

theorem Yields.pure (h : Q v) : Yields (pure v) Q := by
  rintro s _ rest ⟨⟩
  exact h

theorem Yields.fail : Yields fail Q := by
  rintro s v rest ⟨⟩

theorem Yields.bind (hp : Yields p P) (hf : ∀ v, P v → Yields (f v) R) : Yields (p >>= f) R := by
  intro s w rest h
  obtain ⟨v, mid, hv, hw⟩ := exists_of_bind h
  exact hf v (hp s v mid hv) mid w rest hw

/-- The values of a parser that goes on after another one, whatever that returns. -/
theorem Yields.after (hf : ∀ v, Yields (f v) R) : Yields (p >>= f) R :=
  (yields_true p).bind fun v _ => hf v

theorem Yields.firstOf {choices : List (Parser α)} (h : ∀ p ∈ choices, Yields p Q) :
    Yields (firstOf choices) Q := by
  intro s v rest hs
  obtain ⟨p, hp, hs⟩ := exists_of_firstOf hs
  exact h p hp s v rest hs

theorem Yields.optional (hp : Yields p Q) : Yields (optional p) fun found => ∀ v ∈ found, Q v := by
  intro s found rest h
  rw [result_optional] at h
  obtain ⟨rfl, -⟩ := Prod.mk.inj (Option.some.inj h)
  split
  · next v mid hv =>
    rintro _ ⟨⟩
    exact hp s v mid hv
  · rintro _ ⟨⟩

theorem Yields.many (hp : Yields p Q) : Yields (many p) fun vs => ∀ v ∈ vs, Q v := by
  intro s vs rest h
  have hrepeats := repeats_of_many h
  clear h
  induction hrepeats with
  | stop => exact List.forall_mem_nil _
  | next hv _ _ ih => exact List.forall_mem_cons.mpr ⟨hp _ _ _ hv, ih⟩

end Parser

/-! ## Names -/

namespace Text

variable {cls : Char → Bool} {s field : List Char}

/-- The pieces between the characters of a class hold none of them. -/
theorem forall_mem_fields (h : field ∈ fields cls s) : ∀ c ∈ field, cls c = false := by
  induction s generalizing field with
  | nil =>
    obtain rfl := List.mem_singleton.mp h
    exact List.forall_mem_nil _
  | cons c rest ih =>
    rw [fields] at h
    split at h
    · obtain rfl | h := List.mem_cons.mp h
      · exact List.forall_mem_nil _
      · exact ih h
    · next hc =>
      cases hfields : fields cls rest with
      | nil => rw [hfields] at h; cases h
      | cons first others =>
        rw [hfields] at h ih
        obtain rfl | h := List.mem_cons.mp h
        · refine List.forall_mem_cons.mpr ⟨Bool.eq_false_iff.mpr hc, ih List.mem_cons_self⟩
        · exact ih (List.mem_cons_of_mem first h)

end Text

namespace Markup

open XPath.Parser

variable {s : List Char} {name : QName}

theorem isNamePart_ofList {part : List Char} (hne : part ≠ [])
    (hcolon : ∀ c ∈ part, (c == ':') = false) : IsNamePart (String.ofList part) := by
  refine ⟨?_, ?_⟩
  · rw [Ne, ← String.toList_eq_nil_iff, String.toList_ofList]
    exact hne
  · rw [String.toList_ofList]
    intro hmem
    exact absurd (hcolon ':' hmem) (by decide)

theorem isProper_of_splitName (h : splitName s = some name) : name.IsProper := by
  have hstart : ∀ part : List Char,
      (part.head?.any fun c => isNameStart c && c != ':') = true → part ≠ [] := by
    rintro part hpart rfl
    cases hpart
  unfold splitName at h
  dsimp only at h
  split at h
  · next localPart hfields =>
    split at h
    · next hlocal =>
      obtain rfl := Option.some.inj h
      have hcolon := Text.forall_mem_fields (hfields ▸ List.mem_cons_self)
      exact ⟨isNamePart_ofList (hstart _ hlocal) hcolon, fun _ h => by cases h⟩
    · cases h
  · next qualifier localPart hfields =>
    split at h
    · next hparts =>
      obtain rfl := Option.some.inj h
      obtain ⟨hlocal, -⟩ := (Bool.and_eq_true _ _).mp hparts
      have hcolon : ∀ c ∈ localPart, (c == ':') = false :=
        Text.forall_mem_fields (s := s) (by rw [hfields]; simp)
      have hcolon' : ∀ c ∈ qualifier, (c == ':') = false :=
        Text.forall_mem_fields (s := s) (by rw [hfields]; simp)
      refine ⟨isNamePart_ofList (hstart _ hlocal) hcolon, ?_⟩
      intro part hpart
      split at hpart
      · cases hpart
      · next hne =>
        obtain rfl := Option.some.inj hpart
        exact isNamePart_ofList (fun h => hne (by rw [h]; rfl)) hcolon'
    · cases h
  · cases h

theorem yields_given {α : Type} {o : Option α} {Q : α → Prop} (h : ∀ v, o = some v → Q v) :
    Yields (given o) Q := by
  cases o with
  | none => exact .fail
  | some value => exact .pure (h value rfl)

theorem yields_qualifiedName : Yields qualifiedName QName.IsProper :=
  .after fun _ => yields_given fun _ => isProper_of_splitName

/-! ## Items -/

/-- Whether the names in a start tag are proper. -/
def Item.IsProper : Item → Prop
  | .startTag name attributes _ => name.IsProper ∧ ∀ attr ∈ attributes, attr.name.IsProper
  | _ => True

theorem yields_writtenAttribute : Yields writtenAttribute fun attr => attr.name.IsProper :=
  yields_qualifiedName.bind fun _ hname =>
    .after fun _ => .after fun _ => .after fun _ => .after fun _ => .pure hname

theorem yields_startTag : Yields startTag Item.IsProper := by
  refine .after fun _ => yields_qualifiedName.bind fun name hname => ?_
  have hattributes : Yields (many (do gap; writtenAttribute))
      fun attrs => ∀ attr ∈ attrs, attr.name.IsProper :=
    .many (.after fun _ => yields_writtenAttribute)
  split
  · exact .after fun _ => hattributes.bind fun _ h => .after fun _ => .pure ⟨hname, h⟩
  · exact hattributes.bind fun _ h => .after fun _ => .pure ⟨hname, h⟩

theorem yields_endTag : Yields endTag Item.IsProper :=
  .after fun _ => .after fun _ => .after fun _ => .after fun _ => .pure trivial

theorem yields_comment : Yields comment Item.IsProper :=
  .after fun _ => .after fun _ => .after fun _ => .pure trivial

theorem yields_instruction : Yields instruction Item.IsProper := by
  refine .after fun _ => .after fun _ => .after fun _ => .after fun _ => ?_
  split
  · exact .after fun _ => .pure trivial
  · exact .pure trivial

theorem yields_characterData : Yields characterData Item.IsProper := by
  refine .after fun _ => .after fun _ => ?_
  dsimp only
  split
  · exact .after fun _ => .pure trivial
  · exact .pure trivial

theorem yields_verbatim : Yields verbatim Item.IsProper :=
  .after fun _ => .after fun _ => .pure trivial

theorem yields_item : Yields item Item.IsProper := by
  refine .firstOf fun p hp => ?_
  simp only [List.mem_cons, List.not_mem_nil, or_false] at hp
  obtain rfl | rfl | rfl | rfl | rfl | rfl := hp
  · exact yields_comment
  · exact yields_verbatim
  · exact yields_instruction
  · exact yields_endTag
  · exact yields_startTag
  · exact yields_characterData

/-- The items of a text have proper names. -/
def AllProper (items : List Item) : Prop := ∀ item ∈ items, item.IsProper

theorem yields_itemsWithin (count levels : Nat) : Yields (itemsWithin count levels) AllProper := by
  induction count generalizing levels with
  | zero => exact .fail
  | succ count ih =>
    refine .after fun ended => ?_
    cases ended with
    | some _ => exact .pure (List.forall_mem_nil _)
    | none =>
      refine yields_item.bind fun item hitem => ?_
      split
      · exact .pure (List.forall_mem_singleton.mpr hitem)
      · exact (ih _).bind fun items hitems => .pure (List.forall_mem_cons.mpr ⟨hitem, hitems⟩)

theorem yields_content : Yields content AllProper :=
  fun s items rest h => yields_itemsWithin (s.length + 1) 1 s items rest h

theorem yields_element : Yields element AllProper := by
  refine yields_startTag.bind fun tag htag => ?_
  split
  · exact yields_content.bind fun items hitems =>
      .pure (List.forall_mem_cons.mpr ⟨htag, hitems⟩)
  · exact .pure (List.forall_mem_singleton.mpr htag)

/-! ## Whole texts -/

theorem yields_misc : Yields misc AllProper := by
  have hitem : Yields (do blanks; firstOf [comment, instruction]) Item.IsProper := by
    refine .after fun _ => .firstOf fun p hp => ?_
    simp only [List.mem_cons, List.not_mem_nil, or_false] at hp
    obtain rfl | rfl := hp
    · exact yields_comment
    · exact yields_instruction
  exact hitem.many.bind fun items hitems => .after fun _ => .pure hitems

theorem yields_typeContent : Yields typeContent fun found => AllProper found.1 := by
  refine .firstOf fun p hp => ?_
  simp only [List.mem_cons, List.not_mem_nil, or_false] at hp
  obtain rfl | rfl | rfl | rfl := hp
  · exact .after fun _ => .pure (List.forall_mem_nil _)
  · exact yields_comment.bind fun _ h => .pure (List.forall_mem_singleton.mpr h)
  · exact yields_instruction.bind fun _ h => .pure (List.forall_mem_singleton.mpr h)
  · exact .after fun _ => .pure (List.forall_mem_nil _)

theorem yields_documentType : Yields documentType fun found => AllProper found.1 := by
  refine .after fun _ => .after fun _ => .after fun _ => .after fun _ => .after fun _ =>
    .after fun _ => .after fun ended => ?_
  cases ended with
  | some _ => exact .pure (List.forall_mem_nil _)
  | none =>
    have hcontent : Yields (many (do blanks; typeContent))
        fun found => ∀ part ∈ found, AllProper part.1 :=
      .many (.after fun _ => yields_typeContent)
    refine .after fun _ => hcontent.bind fun found hfound => .after fun _ => .after fun _ =>
      .after fun _ => .after fun _ => .pure ?_
    intro item hitem
    obtain ⟨part, hpart, hmem⟩ := List.mem_flatMap.mp hitem
    exact hfound part hpart item hmem

theorem yields_document : Yields document fun found => AllProper found.1 := by
  refine .after fun _ => .after fun _ => yields_misc.bind fun before hbefore =>
    yields_documentType.optional.bind fun type htype => yields_misc.bind fun between hbetween =>
    yields_element.bind fun root hroot => yields_misc.bind fun after hafter => .pure ?_
  have hinType : AllProper (type.getD ([], [])).1 := by
    cases type with
    | none => exact List.forall_mem_nil _
    | some found => exact htype found rfl
  intro item hitem
  simp only [List.mem_append] at hitem
  rcases hitem with (((h | h) | h) | h) | h
  · exact hbefore item h
  · exact hinType item h
  · exact hbetween item h
  · exact hroot item h
  · exact hafter item h

end Markup
end XPath
