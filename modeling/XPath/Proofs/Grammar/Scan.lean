import Mathlib.Data.List.DropRight
import XPath.Grammar.Phrase
import XPath.Proofs.Number.Numeral
/-! Reading a text as tokens, piece by piece: readings can be joined, white space at the end can be
dropped, and the brackets of the text are those of its tokens. The last two need that the characters
of names and numerals are neither white space nor quotes nor brackets. -/
namespace XPath.Grammar
set_option autoImplicit false

open XPath.Parser

variable {s mid rest tail w : List Char} {ts us : List Token} {token : Token} {c : Char}

/-! ## Joining -/

theorem Scan.trans (h : Scan s ts mid) (h' : Scan mid us rest) : Scan s (ts ++ us) rest := by
  induction h with
  | done => exact h'
  | blank hc _ ih => exact .blank hc (ih h')
  | token ht _ ih => exact .token ht (ih h')

theorem Scan.single (h : token.Leads s rest) : Scan s [token] rest := .token h .done

theorem Scan.dropBlanks : Scan s [] (s.dropWhile Text.isBlank) := by
  induction s with
  | nil => exact .done
  | cons c s ih =>
    rw [List.dropWhile_cons]
    split
    · next hc => exact .blank hc ih
    · exact .done

/-! ## Characters of names and numerals -/

theorem isNameChar_of_isNameStart (h : isNameStart c = true) : isNameChar c = true := by
  simp only [isNameStart, Bool.or_eq_true] at h
  simp only [isNameChar, Bool.or_eq_true]
  tauto

theorem IsSimpleName.isNameChar (h : IsSimpleName w) : ∀ c ∈ w, isNameChar c = true := by
  obtain ⟨first, more, rfl, hfirst, hmore⟩ := h
  intro c hc
  rcases List.mem_cons.mp hc with rfl | hc
  · exact isNameChar_of_isNameStart hfirst
  · exact hmore c hc

theorem IsSimpleName.ne_nil (h : IsSimpleName w) : w ≠ [] := by
  obtain ⟨first, more, rfl, -⟩ := h
  exact List.cons_ne_nil _ _

theorem IsProperName.text_ne_nil {qname : QName} (h : IsProperName qname) :
    qname.text.toList ≠ [] := by
  unfold QName.text
  cases qname.qualifier with
  | none => exact h.2.ne_nil
  | some qualifier => simp

/-- The code points with the White_Space property. -/
def spaceCodes : List Nat :=
  [9, 10, 11, 12, 13, 0x20, 0x85, 0xA0, 0x1680] ++ List.range' 0x2000 11 ++
    [0x2028, 0x2029, 0x202F, 0x205F, 0x3000]

theorem mem_spaceCodes (h : Text.isSpace c = true) : c.toNat ∈ spaceCodes := by
  simp only [Text.isSpace, Bool.or_eq_true, Bool.and_eq_true, decide_eq_true_eq, beq_iff_eq] at h
  simp only [spaceCodes, List.mem_append, List.mem_cons, List.mem_range'_1, List.not_mem_nil]
  omega

/-- The characters of names, references and numerals. -/
def isPlain (c : Char) : Bool := isNameChar c || c.isDigit || c == ':' || c == '$'

theorem isPlain_eq_false_of_mem_spaceCodes :
    ∀ n ∈ spaceCodes, isPlain (Char.ofNat n) = false := by decide +kernel

theorem isSpace_eq_false_of_isPlain (h : isPlain c = true) : Text.isSpace c = false := by
  refine Bool.eq_false_iff.mpr fun hspace => ?_
  have hfalse := isPlain_eq_false_of_mem_spaceCodes c.toNat (mem_spaceCodes hspace)
  rw [Char.ofNat_toNat, h] at hfalse
  cases hfalse

theorem isQuote_eq_false_of_isPlain (h : isPlain c = true) : isQuote c = false := by
  refine Bool.eq_false_iff.mpr fun hquote => ?_
  simp only [isQuote, Bool.or_eq_true, beq_iff_eq] at hquote
  rcases hquote with rfl | rfl <;> exact absurd h (by decide)

theorem isBracket_eq_false_of_isPlain (h : isPlain c = true) : isBracket c = false := by
  refine Bool.eq_false_iff.mpr fun hbracket => ?_
  simp only [isBracket, Bool.or_eq_true, beq_iff_eq] at hbracket
  rcases hbracket with ((rfl | rfl) | rfl) | rfl <;> exact absurd h (by decide)

theorem isPlain_of_isNameChar (h : isNameChar c = true) : isPlain c = true := by
  simp [isPlain, h]

theorem isPlain_of_isDigit (h : c.isDigit = true) : isPlain c = true := by
  simp [isPlain, h]

theorem IsProperName.isPlain {qname : QName} (h : IsProperName qname) :
    ∀ c ∈ qname.text.toList, isPlain c = true := by
  intro c hc
  have hlocal := h.2.isNameChar c
  unfold QName.text at hc
  cases hq : qname.qualifier with
  | none =>
    rw [hq] at hc
    exact isPlain_of_isNameChar (hlocal hc)
  | some qualifier =>
    rw [hq] at hc
    have hqualifier := (h.1 qualifier hq).isNameChar c
    simp only [String.toList_append, List.mem_append] at hc
    rcases hc with (hc | hc) | hc
    · exact isPlain_of_isNameChar (hqualifier hc)
    · obtain rfl : c = ':' := by simpa using hc
      rfl
    · exact isPlain_of_isNameChar (hlocal hc)

theorem isPlain_numeral {whole fraction : List Char}
    (h : Number.numeral? w = some (whole, fraction)) : w ≠ [] ∧ ∀ c ∈ w, isPlain c = true := by
  obtain ⟨hdigits, hne, ⟨rfl, rfl⟩ | rfl⟩ := Number.numeral?_eq_some_iff.mp h
  · rw [List.append_nil] at hdigits hne
    exact ⟨hne, fun c hc => isPlain_of_isDigit (hdigits c hc)⟩
  · refine ⟨by simp, fun c hc => ?_⟩
    rcases List.mem_append.mp hc with hc | hc
    · exact isPlain_of_isDigit (hdigits c (by simp [hc]))
    · rcases List.mem_cons.mp hc with rfl | hc
      · rfl
      · exact isPlain_of_isDigit (hdigits c (by simp [hc]))

/-! ## White space at the end -/

theorem startsIn_of_prefix {cls : Char → Bool} (h : startsIn cls rest = false)
    (htail : tail <+: rest) : startsIn cls tail = false := by
  obtain ⟨more, rfl⟩ := htail
  cases tail with
  | nil => rfl
  | cons c tail => exact h

theorem rdropWhile_append {p : Char → Bool} (hw : w ≠ []) (hlast : ∀ c ∈ w.getLast?, p c = false) :
    (w ++ rest).rdropWhile p = w ++ rest.rdropWhile p := by
  obtain ⟨front, last, rfl⟩ := (List.eq_nil_or_concat' w).resolve_left hw
  have hp : p last = false := hlast last (by simp)
  unfold List.rdropWhile
  rw [List.reverse_append, List.dropWhile_append]
  split
  · next hempty =>
    have hnil : rest.reverse.dropWhile p = [] := by simpa using hempty
    simp [hnil, hp]
  · simp

theorem rdropWhile_cons {p : Char → Bool} (hc : p c = true) :
    (c :: s).rdropWhile p = s.rdropWhile p ∨ (c :: s).rdropWhile p = c :: s.rdropWhile p := by
  unfold List.rdropWhile
  rw [List.reverse_cons, List.dropWhile_append]
  split
  · next hempty =>
    have hnil : s.reverse.dropWhile p = [] := by simpa using hempty
    left
    simp [hnil, hc]
  · right
    simp

theorem symbols_spec : ∀ text ∈ symbols,
    text.toList ≠ [] ∧ (∀ c ∈ text.toList.getLast?, Text.isSpace c = false) ∧
      ∀ c ∈ text.toList, isQuote c = false := by
  decide

theorem isSpace_getLast_of_isPlain (h : ∀ c ∈ w, isPlain c = true) :
    ∀ c ∈ w.getLast?, Text.isSpace c = false :=
  fun c hc => isSpace_eq_false_of_isPlain (h c (List.mem_of_getLast? hc))

/-- A token takes at least one character, and what it takes does not end in white space. Where less
of the text follows, it takes the same. -/
theorem Token.Leads.exists_taken (h : token.Leads s rest) :
    ∃ w, s = w ++ rest ∧ w ≠ [] ∧ (∀ c ∈ w.getLast?, Text.isSpace c = false) ∧
      ∀ tail, tail <+: rest → token.Leads (w ++ tail) tail := by
  cases token with
  | symbol text =>
    obtain ⟨hmem, rfl, hlongest⟩ := h
    obtain ⟨hne, hlast, -⟩ := symbols_spec text hmem
    refine ⟨text.toList, rfl, hne, hlast, fun tail htail => ⟨hmem, rfl, fun longer hlonger hle => ?_⟩⟩
    exact hlongest longer hlonger (hle.trans ((List.prefix_append_right_inj _).mpr htail))
  | name qname =>
    obtain ⟨hname, rfl, hends⟩ := h
    exact ⟨_, rfl, hname.text_ne_nil, isSpace_getLast_of_isPlain hname.isPlain,
      fun tail htail => ⟨hname, rfl, startsIn_of_prefix hends htail⟩⟩
  | anyWith qualifier =>
    obtain ⟨hname, rfl⟩ := h
    exact ⟨qualifier.toList ++ [':', '*'], by simp, by simp, by simp [Text.isSpace],
      fun tail _ => ⟨hname, by simp⟩⟩
  | reference qname =>
    obtain ⟨hname, rfl, hends⟩ := h
    have hplain : ∀ c ∈ '$' :: qname.text.toList, isPlain c = true := by
      intro c hc
      rcases List.mem_cons.mp hc with rfl | hc
      · rfl
      · exact hname.isPlain c hc
    exact ⟨_, rfl, List.cons_ne_nil _ _, isSpace_getLast_of_isPlain hplain,
      fun tail htail => ⟨hname, rfl, startsIn_of_prefix hends htail⟩⟩
  | literal text =>
    obtain ⟨quote, hquote, hmem, rfl⟩ := h
    refine ⟨quote :: (text.toList ++ [quote]), by simp, by simp, fun c hc => ?_,
      fun tail _ => ⟨quote, hquote, hmem, by simp⟩⟩
    obtain rfl : quote = c := by simpa [List.getLast?_cons] using hc
    rcases hquote with rfl | rfl <;> rfl
  | number value =>
    obtain ⟨w, whole, fraction, rfl, hw, hvalue, hdigit, hpoint⟩ := h
    obtain ⟨hne, hplain⟩ := isPlain_numeral hw
    exact ⟨w, rfl, hne, isSpace_getLast_of_isPlain hplain, fun tail htail =>
      ⟨w, whole, fraction, rfl, hw, hvalue, startsIn_of_prefix hdigit htail,
        hpoint.imp_right fun hpoint => startsIn_of_prefix hpoint htail⟩⟩

theorem Scan.rdropWhile (h : Scan s ts rest) (hrest : ∀ c ∈ rest, Text.isSpace c = true) :
    Scan (s.rdropWhile Text.isSpace) ts [] := by
  induction h with
  | done =>
    rw [List.rdropWhile_eq_nil_iff.mpr hrest]
    exact .done
  | blank hc _ ih =>
    rcases rdropWhile_cons (Text.isSpace_of_isBlank hc) with heq | heq
    · rw [heq]
      exact ih hrest
    · rw [heq]
      exact .blank hc (ih hrest)
  | token ht _ ih =>
    obtain ⟨w, rfl, hne, hlast, hleads⟩ := ht.exists_taken
    rw [rdropWhile_append hne hlast]
    exact .token (hleads _ (List.rdropWhile_prefix _ _)) (ih hrest)

/-! ## Lone slashes -/

theorem symbols_head : ∀ text ∈ symbols, ∀ rest,
    startsIn Text.isBlank (text.toList ++ rest) = false ∧
      (startsIn (· == '/') (text.toList ++ rest) = true → text = "/" ∨ text = "//") := by
  have hheads : ∀ text ∈ symbols, text.toList ≠ [] ∧ startsIn Text.isBlank text.toList = false ∧
      (startsIn (· == '/') text.toList = true → text = "/" ∨ text = "//") := by decide
  intro text htext rest
  obtain ⟨hne, hspec⟩ := hheads text htext
  obtain ⟨c, more, heq⟩ := List.exists_cons_of_ne_nil hne
  rw [heq] at hspec ⊢
  exact hspec

/-- A token that is no symbol begins with neither a blank nor a slash. -/
theorem Token.Leads.head (h : token.Leads s rest) :
    startsIn Text.isBlank s = false ∧
      (startsIn (· == '/') s = true → token = .symbol "/" ∨ token = .symbol "//") := by
  have hplain : ∀ {w t : List Char}, w ≠ [] → (∀ c ∈ w, isPlain c = true) →
      startsIn Text.isBlank (w ++ t) = false ∧ startsIn (· == '/') (w ++ t) = false := by
    intro w t hne hw
    obtain ⟨c, more, rfl⟩ := List.exists_cons_of_ne_nil hne
    have hc : isPlain c = true := hw c List.mem_cons_self
    refine ⟨Bool.eq_false_iff.mpr fun hblank => ?_, Bool.eq_false_iff.mpr fun hslash => ?_⟩
    · have hspace := Text.isSpace_of_isBlank hblank
      rw [isSpace_eq_false_of_isPlain hc] at hspace
      cases hspace
    · obtain rfl : c = '/' := by simpa [startsIn] using hslash
      exact absurd hc (by decide)
  cases token with
  | symbol text =>
    obtain ⟨hmem, rfl, -⟩ := h
    simpa using symbols_head text hmem rest
  | name qname =>
    obtain ⟨hname, rfl, -⟩ := h
    obtain ⟨hblank, hslash⟩ := hplain hname.text_ne_nil hname.isPlain
    exact ⟨hblank, fun h => by rw [hslash] at h; cases h⟩
  | anyWith qualifier =>
    obtain ⟨hname, rfl⟩ := h
    obtain ⟨hblank, hslash⟩ := hplain hname.ne_nil
      fun c hc => isPlain_of_isNameChar (hname.isNameChar c hc)
    exact ⟨hblank, fun h => by rw [hslash] at h; cases h⟩
  | reference qname =>
    obtain ⟨-, rfl, -⟩ := h
    exact ⟨rfl, nofun⟩
  | literal text =>
    obtain ⟨quote, rfl | rfl, -, rfl⟩ := h <;> exact ⟨rfl, nofun⟩
  | number value =>
    obtain ⟨w, whole, fraction, rfl, hw, -⟩ := h
    obtain ⟨hne, hw⟩ := isPlain_numeral hw
    obtain ⟨hblank, hslash⟩ := hplain hne hw
    exact ⟨hblank, fun h => by rw [hslash] at h; cases h⟩

/-- Blanks belong to no token. -/
theorem Scan.of_blank (hc : Text.isBlank c = true) (h : Scan (c :: s) ts []) : Scan s ts [] := by
  cases h with
  | blank _ h => exact h
  | token ht _ =>
    have hblank := ht.head.1
    rw [show startsIn Text.isBlank (c :: s) = Text.isBlank c from rfl, hc] at hblank
    cases hblank

/-- Two slashes with a blank between them are two tokens. -/
theorem Scan.not_slashesApart (hc : Text.isBlank c = true)
    (h : Scan ('/' :: c :: '/' :: s) ts []) : ¬ SlashesApart ts := by
  have hseparator : ∀ {t us}, Scan ('/' :: t) us [] →
      ∃ token more mid, us = token :: more ∧ IsSeparator token ∧
        token.Leads ('/' :: t) mid ∧ Scan mid more [] := by
    intro t us hscan
    cases hscan with
    | blank hblank => cases hblank
    | token hleads hscan => exact ⟨_, _, _, rfl, hleads.head.2 rfl, hleads, hscan⟩
  obtain ⟨first, more, mid, rfl, hfirst, hleads, hscan⟩ := hseparator h
  rcases hfirst with rfl | rfl
  · obtain ⟨-, heq, -⟩ := hleads
    obtain rfl : c :: '/' :: s = mid := by simpa using heq
    obtain ⟨second, more, -, rfl, hsecond, -⟩ := hseparator (hscan.of_blank hc)
    exact fun hapart => (List.isChain_cons_cons.mp hapart).1 rfl hsecond
  · obtain ⟨-, heq, -⟩ := hleads
    have heq : '/' :: c :: '/' :: s = '/' :: '/' :: mid := heq
    obtain rfl : c = '/' := (List.cons.inj (List.cons.inj heq).2).1
    cases hc

/-! ## Brackets -/

theorem brackets_append (h : ∀ c ∈ w, isQuote c = false) :
    brackets (w ++ rest) = w.filter isBracket ++ brackets rest := by
  unfold brackets
  induction w with
  | nil => rfl
  | cons c w ih =>
    have hc : isQuote c = false := h c List.mem_cons_self
    have ih := ih fun c hc => h c (List.mem_cons_of_mem _ hc)
    cases hbracket : isBracket c <;> simp [bracketsFrom, hc, hbracket, ih]

theorem brackets_of_isSpace (h : ∀ c ∈ w, Text.isSpace c = true) : brackets w = [] := by
  have hother : ∀ c ∈ w, isQuote c = false ∧ isBracket c = false := by
    intro c hc
    have hspace := h c hc
    constructor <;> refine Bool.eq_false_iff.mpr fun hc => ?_
    · simp only [isQuote, Bool.or_eq_true, beq_iff_eq] at hc
      rcases hc with rfl | rfl <;> cases hspace
    · simp only [isBracket, Bool.or_eq_true, beq_iff_eq] at hc
      rcases hc with ((rfl | rfl) | rfl) | rfl <;> cases hspace
  rw [← List.append_nil w, brackets_append fun c hc => (hother c hc).1,
    List.filter_eq_nil_iff.mpr fun c hc => by simp [(hother c hc).2]]
  rfl

theorem brackets_append_of_isPlain (h : ∀ c ∈ w, isPlain c = true) :
    brackets (w ++ rest) = brackets rest := by
  rw [brackets_append fun c hc => isQuote_eq_false_of_isPlain (h c hc),
    List.filter_eq_nil_iff.mpr fun c hc => by simp [isBracket_eq_false_of_isPlain (h c hc)],
    List.nil_append]

/-- What stands between two quotes counts for nothing. -/
theorem brackets_literal {quote : Char} (hquote : isQuote quote = true) (hw : quote ∉ w) :
    brackets (quote :: (w ++ quote :: rest)) = brackets rest := by
  have hinside : bracketsFrom (some quote) (w ++ quote :: rest) = bracketsFrom none rest := by
    induction w with
    | nil => simp [bracketsFrom]
    | cons c w ih =>
      simp only [List.mem_cons, not_or] at hw
      simp [bracketsFrom, Ne.symm hw.1, ih hw.2]
  simp [brackets, bracketsFrom, hquote, hinside]

theorem Token.Leads.brackets_eq (h : token.Leads s rest) :
    Grammar.brackets s = token.brackets ++ Grammar.brackets rest := by
  cases token with
  | symbol text =>
    obtain ⟨hmem, rfl, -⟩ := h
    exact brackets_append (symbols_spec text hmem).2.2
  | name qname =>
    obtain ⟨hname, rfl, -⟩ := h
    exact brackets_append_of_isPlain hname.isPlain
  | anyWith qualifier =>
    obtain ⟨hname, rfl⟩ := h
    rw [brackets_append_of_isPlain fun c hc => isPlain_of_isNameChar (hname.isNameChar c hc)]
    rfl
  | reference qname =>
    obtain ⟨hname, rfl, -⟩ := h
    show Grammar.brackets (qname.text.toList ++ rest) = _
    exact brackets_append_of_isPlain hname.isPlain
  | literal text =>
    obtain ⟨quote, hquote, hmem, rfl⟩ := h
    refine brackets_literal ?_ hmem
    rcases hquote with rfl | rfl <;> rfl
  | number value =>
    obtain ⟨w, whole, fraction, rfl, hw, -⟩ := h
    exact brackets_append_of_isPlain (isPlain_numeral hw).2

theorem Scan.brackets_eq (h : Scan s ts rest) :
    brackets s = ts.flatMap Token.brackets ++ brackets rest := by
  induction h with
  | done => rfl
  | blank hc _ ih =>
    simp only [Text.isBlank, Bool.or_eq_true, beq_iff_eq] at hc
    rcases hc with ((rfl | rfl) | rfl) | rfl <;> exact ih
  | token ht _ ih => rw [ht.brackets_eq, ih, List.flatMap_cons, List.append_assoc]

end XPath.Grammar
