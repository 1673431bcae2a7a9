import XPath.Expr.Rendering
import XPath.Grammar.Phrase
import XPath.Proofs.Parser.Token
/-! What the productions read, one lemma for each form of text that they may meet. Where an ordered
choice takes a later alternative, the earlier ones are stuck at the first character, which is what
the lemmas on being stuck say: they ask for the class of characters that the text does not begin
with. -/
namespace XPath.Parser
set_option autoImplicit false

open Grammar

section
variable {α β : Type} {p q : Parser α} {f : α → Parser β} {s mid rest : List Char} {v : α}
  {vs : List α} {c : Char}

/-! ## Texts by their beginning -/

/-- The text is empty or begins with one of these characters. -/
def Begins (cs : List Char) (s : List Char) : Prop := ∀ c ∈ s.head?, c ∈ cs

theorem Begins.startsIn {cs : List Char} {cls : Char → Bool} (h : Begins cs s)
    (hcs : ∀ c ∈ cs, cls c = false) : startsIn cls s = false := by
  cases s with
  | nil => rfl
  | cons c s => exact hcs c (h c rfl)

theorem begins_cons {cs : List Char} (h : c ∈ cs) : Begins cs (c :: s) := by
  rintro _ ⟨⟩
  exact h

theorem Begins.imp {cs ds : List Char} (h : Begins cs s) (hcs : cs ⊆ ds) : Begins ds s :=
  fun c hc => hcs (h c hc)

theorem dropBlanks_eq_self (h : startsIn Text.isBlank s = false) :
    s.dropWhile Text.isBlank = s := by
  cases s with
  | nil => rfl
  | cons c s => exact List.dropWhile_cons_of_neg (by simpa [startsIn] using h)

theorem startsIn_blanks {cls : Char → Bool} {w : List Char}
    (hw : ∀ c ∈ w, Text.isBlank c = true) (hcls : ∀ c, Text.isBlank c = true → cls c = false)
    (hs : startsIn cls s = false) : startsIn cls (w ++ s) = false := by
  cases w with
  | nil => exact hs
  | cons c w => exact hcls c (hw c List.mem_cons_self)

/-! ## Combinators -/

theorem result_manyWithin {count : Nat} (h : Repeats p s vs rest) (hcount : vs.length < count)
    (hstuck : (p rest).result = none) : (manyWithin p count s).result = some (vs, rest) := by
  induction h generalizing count with
  | stop =>
    obtain ⟨count, rfl⟩ := Nat.exists_eq_succ_of_ne_zero (Nat.ne_of_gt hcount)
    simp [manyWithin, hstuck]
  | next hv htaken _ ih =>
    obtain ⟨count, rfl⟩ := Nat.exists_eq_succ_of_ne_zero (Nat.ne_of_gt (Nat.zero_lt_of_lt hcount))
    simp [manyWithin, hv, htaken, ih (Nat.lt_of_succ_lt_succ hcount) hstuck]

/-- A repetition is bounded by the length of the text, which no longer matters here. -/
theorem result_many (h : Repeats p s vs rest) (hlength : vs.length ≤ s.length)
    (hstuck : (p rest).result = none) : (many p s).result = some (vs, rest) :=
  result_manyWithin h (Nat.lt_succ_of_le hlength) hstuck

theorem result_many_nil (hstuck : (p s).result = none) : (many p s).result = some ([], s) :=
  result_many .stop (Nat.zero_le _) hstuck

theorem firstOf_none {choices : List (Parser α)} (h : ∀ p ∈ choices, (p s).result = none) :
    (firstOf choices s).result = none := by
  refine Option.eq_none_iff_forall_ne_some.mpr fun found hfound => ?_
  obtain ⟨p, hp, hfound⟩ := exists_of_firstOf hfound
  rw [h p hp] at hfound
  cases hfound

theorem word_none {text : String} {c : Char} {more : List Char} (htext : text.toList = c :: more)
    (h : startsIn (· == c) s = false) : (word text s).result = none := by
  refine Option.eq_none_iff_forall_ne_some.mpr fun found hfound => ?_
  have hs := result_word.mp hfound
  rw [htext] at hs
  subst hs
  simp [startsIn] at h

theorem spelling_none {text : String} {value : α} (h : (word text s).result = none) :
    (spelling text value s).result = none := by
  unfold spelling
  rw [result_bind, h]
  rfl

/-! ## Taking something -/

/-- Where it is not stuck, the parser takes at least one character. -/
def Takes (p : Parser α) : Prop := ∀ s found, (p s).result = some found → (p s).taken ≠ 0

theorem taken_bind {found : α × List Char} (h : (p s).result = some found) :
    ((p >>= f) s).taken = (p s).taken + (f found.1 found.2).taken := by
  show (Parser.bind p f s).taken = _
  unfold Parser.bind
  simp [h]

theorem Takes.bind (hp : Takes p) : Takes (p >>= f) := by
  intro s found h
  obtain ⟨v, mid, hv, -⟩ := exists_of_bind h
  have htaken := hp s _ hv
  rw [taken_bind hv]
  omega

theorem Takes.spaced (hp : Takes p) : Takes (spaced p) := by
  intro s found h
  rw [result_spaced] at h
  obtain ⟨found', hfound', -⟩ := Option.map_eq_some_iff.mp h
  have htaken := hp _ _ hfound'
  unfold XPath.Parser.spaced
  rw [taken_bind result_blanks, taken_bind hfound']
  omega

theorem Takes.orElse (hp : Takes p) (hq : Takes q) : Takes (p <|> q) := by
  intro s found h
  show (Parser.orElse p q s).taken ≠ 0
  rw [result_orElse, Option.or_eq_some_iff] at h
  unfold Parser.orElse
  rcases h with h | ⟨hnone, h⟩
  · have htaken := hp s _ h
    simpa [h] using htaken
  · have htaken := hq s _ h
    simpa [hnone, h] using htaken

theorem Takes.firstOf {choices : List (Parser α)} (h : ∀ p ∈ choices, Takes p) :
    Takes (firstOf choices) := by
  induction choices with
  | nil => rintro s found ⟨⟩
  | cons p choices ih =>
    exact .orElse (h p List.mem_cons_self) (ih fun q hq => h q (List.mem_cons_of_mem _ hq))

theorem Takes.char (c : Char) : Takes (char c) := by
  rintro s ⟨d, rest⟩ h
  obtain ⟨rfl, -⟩ := result_char.mp h
  simp [Parser.char, satisfy]

theorem Takes.word {text : String} (htext : text.length ≠ 0) : Takes (word text) := by
  intro s found h
  unfold Parser.word at h ⊢
  split
  · exact htext
  · next hnone =>
    rw [hnone] at h
    cases h

theorem Takes.spelling {text : String} {value : α} (htext : text.length ≠ 0) :
    Takes (spelling text value) := (Takes.word htext).bind

theorem Takes.keyword {text : String} (htext : text.length ≠ 0) : Takes (keyword text) := by
  intro s found h
  unfold Parser.keyword wordNotBefore at h ⊢
  split
  · next rest hrest =>
    split
    · exact htext
    · exact htext
  · next hnone =>
    rw [hnone] at h
    cases h

/-! ## Tokens -/

theorem result_spaced_char (hc : Text.isBlank c = false) :
    (spaced (char c) (c :: s)).result = some (c, s.dropWhile Text.isBlank) := by
  have hchar : (char c (c :: s)).result = some (c, s) := result_char.mpr ⟨rfl, rfl⟩
  simp [hc, hchar]

theorem spaced_char_none (h : startsIn (· == c) (s.dropWhile Text.isBlank) = false) :
    (spaced (char c) s).result = none := by
  simp [result_char_none.mpr h]

theorem simpleName_none (h : startsIn isNameStart s = false) : (simpleName s).result = none := by
  unfold simpleName
  rw [result_bind, result_satisfy_none.mpr h]
  rfl

theorem qualifiedName_none (h : startsIn isNameStart s = false) :
    (qualifiedName s).result = none := by
  unfold qualifiedName
  rw [result_bind, simpleName_none h]
  rfl

theorem result_qualifiedName {qname : QName} (hname : IsProperName qname)
    (hends : startsIn isNameChar rest = false) (hcolon : startsIn (· == ':') rest = false) :
    (qualifiedName (qname.text.toList ++ rest)).result = some (qname.text, rest) := by
  obtain ⟨qualifier, localPart⟩ := qname
  have hlocal : (simpleName (localPart.toList ++ rest)).result = some (localPart, rest) :=
    result_simpleName.mpr ⟨hname.2, rfl, hends⟩
  unfold qualifiedName
  cases qualifier with
  | none =>
    simp [QName.text, hlocal, result_optional, result_char_none.mpr hcolon]
  | some qualifier =>
    have hcolon : isNameChar ':' = false := by decide
    have hfirst : (simpleName (qualifier.toList ++ ':' :: (localPart.toList ++ rest))).result =
        some (qualifier, ':' :: (localPart.toList ++ rest)) :=
      result_simpleName.mpr ⟨hname.1 qualifier rfl, rfl, hcolon⟩
    have hchar : (char ':' (':' :: (localPart.toList ++ rest))).result =
        some (':', localPart.toList ++ rest) := result_char.mpr ⟨rfl, rfl⟩
    simp [QName.text, hfirst, result_optional, hchar, hlocal]

theorem qualifiedName_plain {name : String} (hname : IsSimpleName name.toList)
    (hends : startsIn isNameChar mid = false)
    (hcolon : ∀ after, mid = ':' :: after → startsIn isNameStart after = false) :
    (qualifiedName (name.toList ++ mid)).result = some (name, mid) := by
  have hfirst : (simpleName (name.toList ++ mid)).result = some (name, mid) :=
    result_simpleName.mpr ⟨hname, rfl, hends⟩
  rcases startsIn_or ':' (s := mid) with hother | ⟨after, rfl⟩
  · simp [qualifiedName, hfirst, result_optional, result_char_none.mpr hother]
  · have hchar : (char ':' (':' :: after)).result = some (':', after) := result_char.mpr ⟨rfl, rfl⟩
    simp [qualifiedName, hfirst, result_optional, hchar, simpleName_none (hcolon after rfl)]

theorem startsIn_append_of_digits {w : List Char} (hne : w ≠ [])
    (hw : ∀ c ∈ w, c.isDigit = true) : startsIn Char.isDigit (w ++ rest) = true := by
  obtain ⟨c, more, rfl⟩ := List.exists_cons_of_ne_nil hne
  exact hw c List.mem_cons_self

/-- A numeral begins with a digit or with its point. -/
theorem numeral_none (hdigit : startsIn Char.isDigit s = false)
    (hpoint : startsIn (· == '.') s = false) : (numeral s).result = none := by
  refine Option.eq_none_iff_forall_ne_some.mpr fun found hfound => ?_
  obtain ⟨w, whole, fraction, rfl, hw, -⟩ := result_numeral.mp hfound
  obtain ⟨hdigits, hne, hw⟩ := Number.numeral?_eq_some_iff.mp hw
  have hwhole : ∀ c ∈ whole, c.isDigit = true := fun c hc => hdigits c (by simp [hc])
  rcases hw with ⟨rfl, rfl⟩ | rfl
  · rw [startsIn_append_of_digits (by simpa using hne) hwhole] at hdigit
    cases hdigit
  · by_cases hnil : whole = []
    · subst hnil
      cases hpoint
    · rw [List.append_assoc, startsIn_append_of_digits hnil hwhole] at hdigit
      cases hdigit

theorem literal_none (h : startsIn isQuote s = false) : (literal s).result = none := by
  refine Option.eq_none_iff_forall_ne_some.mpr fun found hfound => ?_
  obtain ⟨quote, rfl | rfl, -, rfl⟩ := result_literal.mp hfound <;> cases h

/-! ## Node tests -/

/-- What can follow a node test, perhaps behind blanks. -/
def AfterTest (rest : List Char) : Prop :=
  Begins [')', ']', ',', '/', '['] (rest.dropWhile Text.isBlank)

theorem afterTest_of_begins (h : Begins [')', ']', ',', '/', '['] rest) : AfterTest rest := by
  unfold AfterTest
  rwa [dropBlanks_eq_self (h.startsIn (by decide))]

theorem AfterTest.isNameChar (h : AfterTest rest) : startsIn isNameChar rest = false :=
  startsIn_of_dropBlanks (fun _ => isNameChar_eq_false_of_isBlank) (Begins.startsIn h (by decide))

theorem beq_eq_false_of_class {cls : Char → Bool} {d : Char} (hd : cls d = false) :
    ∀ c, cls c = true → (c == d) = false := by
  refine fun c hc => Bool.eq_false_iff.mpr fun heq => ?_
  obtain rfl : c = d := by simpa using heq
  rw [hd] at hc
  cases hc

theorem AfterTest.colon (h : AfterTest rest) : startsIn (· == ':') rest = false :=
  startsIn_of_dropBlanks (beq_eq_false_of_class rfl) (Begins.startsIn h (by decide))

/-- A name that begins a text ends inside the run of name characters there. -/
theorem exists_append_of_name {name run after : List Char}
    (hname : ∀ c ∈ name, isNameChar c = true) (hends : startsIn isNameChar after = false)
    (h : run ++ after = name ++ mid) : ∃ more, run = name ++ more ∧ mid = more ++ after := by
  rcases List.append_eq_append_iff.mp h with ⟨inner, rfl, rfl⟩ | ⟨more, rfl, rfl⟩
  · cases inner with
    | nil => exact ⟨[], by simp, rfl⟩
    | cons c inner =>
      have hc : isNameChar c = true := hname c (by simp)
      rw [show startsIn isNameChar (c :: inner ++ mid) = isNameChar c from rfl, hc] at hends
      cases hends
  · exact ⟨more, rfl, rfl⟩

/-- A name that begins like a node type is none, unless a parenthesis follows. -/
theorem typeTest_none {w : List Char} (hw : ∀ c ∈ w, Text.isBlank c = false ∧ c ≠ '(')
    (hrest : AfterTest rest) : (typeTest (w ++ rest)).result = none := by
  refine Option.eq_none_iff_forall_ne_some.mpr fun found hfound => ?_
  obtain ⟨type, mid, htype, hmid⟩ := exists_of_bind hfound
  obtain ⟨name, -, hname, hs⟩ := exists_nodeType htype
  obtain ⟨open', after, hopen, -⟩ := exists_of_bind hmid
  obtain ⟨more, rfl, rfl⟩ := exists_append_of_name hname.isNameChar hrest.isNameChar hs
  have hround : startsIn (· == '(') ((more ++ rest).dropWhile Text.isBlank) = false := by
    cases more with
    | nil => exact Begins.startsIn hrest (by decide)
    | cons c more =>
      obtain ⟨hblank, hne⟩ := hw c (by simp)
      simpa [startsIn, hblank] using hne
  rw [spaced_char_none hround] at hopen
  cases hopen

theorem localTest_name {name : String} (hname : IsSimpleName name.toList)
    (hends : startsIn isNameChar rest = false) :
    (localTest (name.toList ++ rest)).result = some (some name, rest) := by
  have hstar : (char '*' (name.toList ++ rest)).result = none := by
    obtain ⟨first, more, heq, hfirst, -⟩ := hname
    refine result_char_none.mpr (Bool.eq_false_iff.mpr fun hstar => ?_)
    rw [heq] at hstar
    obtain rfl : first = '*' := by simpa [startsIn] using hstar
    exact absurd hfirst (by decide)
  have hsimple : (simpleName (name.toList ++ rest)).result = some (name, rest) :=
    result_simpleName.mpr ⟨hname, rfl, hends⟩
  simp [localTest, hstar, hsimple]

theorem result_simpleName_colon {name : String} (hname : IsSimpleName name.toList) :
    (simpleName (name.toList ++ ':' :: s)).result = some (name, ':' :: s) :=
  result_simpleName.mpr ⟨hname, rfl, (by decide : isNameChar ':' = false)⟩

theorem result_nameTest {expected : QName} (hname : IsProperName expected)
    (hends : startsIn isNameChar rest = false) (hcolon : startsIn (· == ':') rest = false) :
    (nameTest (expected.text.toList ++ rest)).result = some (.name expected, rest) := by
  obtain ⟨qualifier, localPart⟩ := expected
  unfold nameTest
  cases qualifier with
  | none =>
    have hlocal : (simpleName (localPart.toList ++ rest)).result = some (localPart, rest) :=
      result_simpleName.mpr ⟨hname.2, rfl, hends⟩
    simp [QName.text, hlocal, result_optional, result_char_none.mpr hcolon, QName.plain]
  | some qualifier =>
    have hchar : (char ':' (':' :: (localPart.toList ++ rest))).result =
        some (':', localPart.toList ++ rest) := result_char.mpr ⟨rfl, rfl⟩
    simp [QName.text, result_simpleName_colon (hname.1 qualifier rfl), result_optional, hchar,
      localTest_name hname.2 hends]

theorem nameTest_anyWith {qualifier : String} (hname : IsSimpleName qualifier.toList) :
    (nameTest (qualifier.toList ++ ':' :: '*' :: rest)).result =
      some (.anyWith qualifier, rest) := by
  have hchar : (char ':' (':' :: '*' :: rest)).result = some (':', '*' :: rest) :=
    result_char.mpr ⟨rfl, rfl⟩
  have hlocal : (localTest ('*' :: rest)).result = some (none, rest) := rfl
  simp [nameTest, result_simpleName_colon hname, result_optional, hchar, hlocal]

/-- A node test that begins with a name is no star. -/
theorem nodeTest_eq_nameTest {w : List Char} (hw : ∀ c ∈ w, Text.isBlank c = false ∧ c ≠ '(')
    (hstar : startsIn (· == '*') (w ++ rest) = false) (hrest : AfterTest rest) :
    (nodeTest (w ++ rest)).result = (nameTest (w ++ rest)).result := by
  simp [nodeTest, result_char_none.mpr hstar, typeTest_none hw hrest]

theorem isPlain_spec {c : Char} (h : isPlain c = true) :
    Text.isBlank c = false ∧ c ≠ '(' ∧ c ≠ '*' := by
  refine ⟨Bool.eq_false_iff.mpr fun hblank => ?_, ?_, ?_⟩
  · have hspace := Text.isSpace_of_isBlank hblank
    rw [isSpace_eq_false_of_isPlain h] at hspace
    cases hspace
  · rintro rfl
    exact absurd h (by decide)
  · rintro rfl
    exact absurd h (by decide)

theorem startsIn_append {cls : Char → Bool} {w : List Char} (hne : w ≠ [])
    (hw : ∀ c ∈ w, cls c = false) : startsIn cls (w ++ rest) = false := by
  obtain ⟨c, more, rfl⟩ := List.exists_cons_of_ne_nil hne
  exact hw c List.mem_cons_self

theorem result_nodeTest_target {target : String} {quote : Char}
    (hquote : quote = '\'' ∨ quote = '"') (hmem : quote ∉ target.toList) :
    (nodeTest ("processing-instruction(".toList ++ (quote :: (target.toList ++ [quote]) ++ [')']) ++
      rest)).result = some (.instruction (some target), rest) := by
  have htype : ∀ u, (nodeType ("processing-instruction(".toList ++ u)).result =
      some (none, '(' :: u) := fun _ => rfl
  have hstar : ∀ u, (char '*' ("processing-instruction(".toList ++ u)).result = none :=
    fun _ => rfl
  have hblank : Text.isBlank quote = false := by rcases hquote with rfl | rfl <;> rfl
  have hliteral : (literal (quote :: (target.toList ++ quote :: ')' :: rest))).result =
      some (target, ')' :: rest) := result_literal.mpr ⟨quote, hquote, hmem, rfl⟩
  have hclose : (char ')' (')' :: rest)).result = some (')', rest) := result_char.mpr ⟨rfl, rfl⟩
  have htest : (typeTest ("processing-instruction(".toList ++
      quote :: (target.toList ++ quote :: ')' :: rest))).result =
      some (.instruction (some target), rest) := by
    unfold typeTest
    rw [result_bind, htype, Option.bind_some, result_bind, result_spaced_char rfl]
    have hround : (')' :: rest).dropWhile Text.isBlank = ')' :: rest := rfl
    simp [hblank, result_optional, hliteral, hround, hclose]
  have htext : "processing-instruction(".toList ++ (quote :: (target.toList ++ [quote]) ++ [')']) ++
      rest = "processing-instruction(".toList ++
        quote :: (target.toList ++ quote :: ')' :: rest) := by simp
  rw [htext, nodeTest, result_firstOf_cons, result_firstOf_cons, result_bind, hstar, htest]
  rfl

theorem result_nodeTest {test : NodeTest} {t : List Char} (h : test.Renders t)
    (hwritable : test.Writable) (hrest : AfterTest rest) :
    (nodeTest (t ++ rest)).result = some (test, rest) := by
  have hends : startsIn isNameChar rest = false := hrest.isNameChar
  have hcolon : startsIn (· == ':') rest = false := hrest.colon
  cases test with
  | name expected =>
    obtain rfl := h
    have hplain : ∀ c ∈ expected.text.toList, isPlain c = true := hwritable.isPlain
    have hw : ∀ c ∈ expected.text.toList, Text.isBlank c = false ∧ c ≠ '(' :=
      fun c hc => (isPlain_spec (hplain c hc)).imp_right And.left
    have hstar : startsIn (· == '*') (expected.text.toList ++ rest) = false :=
      startsIn_append hwritable.text_ne_nil fun c hc => by
        simpa using (isPlain_spec (hplain c hc)).2.2
    rw [nodeTest_eq_nameTest hw hstar hrest]
    exact result_nameTest hwritable hends hcolon
  | anyName =>
    obtain rfl := h
    rfl
  | anyWith qualifier =>
    obtain rfl := h
    have hplain : ∀ c ∈ qualifier.toList, isPlain c = true :=
      fun c hc => isPlain_of_isNameChar (hwritable.isNameChar c hc)
    have hw : ∀ c ∈ qualifier.toList ++ [':', '*'], Text.isBlank c = false ∧ c ≠ '(' := by
      intro c hc
      rcases List.mem_append.mp hc with hc | hc
      · exact (isPlain_spec (hplain c hc)).imp_right And.left
      · simp only [List.mem_cons, List.not_mem_nil, or_false] at hc
        rcases hc with rfl | rfl <;> exact ⟨rfl, by decide⟩
    have hstar : startsIn (· == '*') (qualifier.toList ++ [':', '*'] ++ rest) = false := by
      rw [List.append_assoc]
      exact startsIn_append hwritable.ne_nil fun c hc => by
        simpa using (isPlain_spec (hplain c hc)).2.2
    rw [nodeTest_eq_nameTest hw hstar hrest]
    simpa using nameTest_anyWith hwritable
  | text =>
    obtain rfl := h
    rfl
  | comment =>
    obtain rfl := h
    rfl
  | node =>
    obtain rfl := h
    rfl
  | instruction target =>
    cases target with
    | none =>
      obtain rfl := h
      rfl
    | some target =>
      obtain ⟨u, ⟨quote, hquote, hmem, rfl⟩, rfl⟩ := h
      exact result_nodeTest_target hquote hmem

/-! ## Steps -/

theorem result_axisName (axis : Axis) {w u : List Char} (hw : ∀ c ∈ w, Text.isBlank c = true) :
    (axisName (axis.name.toList ++ (w ++ ':' :: ':' :: u))).result =
      some (axis, u.dropWhile Text.isBlank) := by
  have hname : ∀ s, startsIn (fun c => c == ':' || Text.isBlank c) s = true →
      (firstOf (Axis.all.map fun axis => spelling axis.name axis)
        (axis.name.toList ++ s)).result = some (axis, s) := by
    intro s hs
    cases s with
    | nil => cases hs
    | cons c s =>
      simp only [startsIn, List.head?_cons, Option.any_some, Text.isBlank, Bool.or_eq_true,
        beq_iff_eq] at hs
      rcases hs with rfl | ((rfl | rfl) | rfl) | rfl <;> cases axis <;> rfl
  have hbegins : startsIn (fun c => c == ':' || Text.isBlank c) (w ++ ':' :: ':' :: u) = true := by
    cases w with
    | nil => rfl
    | cons c w =>
      show (c == ':' || Text.isBlank c) = true
      rw [hw c List.mem_cons_self, Bool.or_true]
  have hdrop : (w ++ ':' :: ':' :: u).dropWhile Text.isBlank = ':' :: ':' :: u :=
    List.dropWhile_append_of_pos hw
  have hcolons : (word "::" (':' :: ':' :: u)).result = some ((), u) := rfl
  unfold axisName
  rw [result_bind, hname _ hbegins, Option.bind_some, result_bind, result_spaced, hdrop, hcolons]
  rfl

/-- A full step begins with no point. -/
theorem step_eq_fullStep {expr : Parser Expr} (hs : startsIn (· == '.') s = false) :
    (step expr s).result = (fullStep expr s).result := by
  have hdots : (word ".." s).result = none := word_none rfl hs
  have hdot : (word "." s).result = none := word_none rfl hs
  simp [step, spelling_none hdots, spelling_none hdot]

theorem result_axisTest (axis : Axis) {w u : List Char} {test : NodeTest}
    (hw : ∀ c ∈ w, Text.isBlank c = true)
    (htest : (nodeTest (u.dropWhile Text.isBlank)).result = some (test, rest)) :
    (axisTest (axis.name.toList ++ (w ++ ':' :: ':' :: u))).result =
      some ((axis, test), rest) := by
  have hat : (spaced (char '@') (axis.name.toList ++ (w ++ ':' :: ':' :: u))).result = none := by
    cases axis <;> rfl
  unfold axisTest
  rw [result_orElse, result_bind, hat, result_bind, result_optional, result_axisName axis hw]
  simp [htest]

theorem result_step (axis : Axis) {expr : Parser Expr} {u : List Char} {test : NodeTest}
    {predicates : List Expr} (hu : startsIn Text.isBlank u = false)
    (htest : (nodeTest u).result = some (test, mid))
    (hpredicates : (many (predicate expr) mid).result = some (predicates, rest)) :
    (step expr (axis.name.toList ++ ':' :: ':' :: u)).result =
      some (.mk axis test predicates, rest) := by
  have hpoint : startsIn (· == '.') (axis.name.toList ++ ':' :: ':' :: u) = false := by
    cases axis <;> rfl
  rw [← dropBlanks_eq_self hu] at htest
  have haxis : (axisTest (axis.name.toList ++ ':' :: ':' :: u)).result =
      some ((axis, test), mid) := @result_axisTest mid axis [] u test (by simp) htest
  rw [step_eq_fullStep hpoint, fullStep, result_bind, haxis]
  simp [hpredicates]

/-- What can follow an expression: nothing, or what closes the brackets around it. -/
def Stops (rest : List Char) : Prop := Begins [')', ']', ','] rest

theorem Stops.nonblank (h : Stops rest) : startsIn Text.isBlank rest = false :=
  h.startsIn (by decide)

theorem word_none_of_name {text : String} (htext : IsSimpleName text.toList)
    (h : startsIn isNameStart s = false) : (word text s).result = none := by
  obtain ⟨first, more, heq, hfirst, -⟩ := htext
  refine word_none heq (Bool.eq_false_iff.mpr fun hs => ?_)
  cases s with
  | nil => cases hs
  | cons c s =>
    obtain rfl : c = first := by simpa [startsIn] using hs
    rw [show startsIn isNameStart (c :: s) = isNameStart c from rfl, hfirst] at h
    cases h

theorem nodeTest_none (hname : startsIn isNameStart s = false)
    (hstar : startsIn (· == '*') s = false) : (nodeTest s).result = none := by
  have htype : (nodeType s).result = none := by
    refine Option.eq_none_iff_forall_ne_some.mpr fun found hfound => ?_
    obtain ⟨name, -, hsimple, hs⟩ := exists_nodeType hfound
    have hword := word_none_of_name hsimple hname
    rw [result_word (u := ()) |>.mpr hs] at hword
    cases hword
  simp [nodeTest, result_char_none.mpr hstar, typeTest, htype, nameTest, simpleName_none hname]

theorem startsIn_imp {cls cls' : Char → Bool} (h : startsIn cls s = false)
    (himp : ∀ c, cls' c = true → cls c = true) : startsIn cls' s = false := by
  cases s with
  | nil => rfl
  | cons c s => exact Bool.eq_false_iff.mpr fun hc => Bool.eq_false_iff.mp h (himp c hc)

/-- The characters that a step can begin with. -/
def beginsStep (c : Char) : Bool := c == '.' || c == '@' || c == '*' || isNameStart c

theorem step_none {expr : Parser Expr} (hs : startsIn Text.isBlank s = false)
    (h : startsIn beginsStep s = false) : (step expr s).result = none := by
  have hpoint : startsIn (· == '.') s = false := startsIn_imp h (by simp +contextual [beginsStep])
  have hdots : (word ".." s).result = none := word_none rfl hpoint
  have hdot : (word "." s).result = none := word_none rfl hpoint
  have hname : startsIn isNameStart s = false :=
    startsIn_imp h (by simp +contextual [beginsStep])
  have haxis : (axisName s).result = none := by
    have hnone : (firstOf (Axis.all.map fun axis => spelling axis.name axis) s).result = none := by
      refine firstOf_none fun p hp => ?_
      obtain ⟨axis, -, rfl⟩ := List.mem_map.mp hp
      exact spelling_none (word_none_of_name (isSimpleName_axis axis) hname)
    unfold axisName
    rw [result_bind, hnone]
    rfl
  have hat : (spaced (char '@') s).result = none := by
    refine spaced_char_none ?_
    rw [dropBlanks_eq_self hs]
    exact startsIn_imp h (by simp +contextual [beginsStep])
  have htest : (nodeTest s).result = none :=
    nodeTest_none hname (startsIn_imp h (by simp +contextual [beginsStep]))
  have hfull : (axisTest s).result = none := by
    unfold axisTest
    rw [result_orElse, result_bind, hat, result_bind, result_optional, haxis]
    simp [htest]
  simp [step, spelling_none hdots, spelling_none hdot, fullStep, hfull]

/-! ## Predicates -/

section
variable {expr : Parser Expr} {e : Expr}

theorem result_predicate (h : (expr (s.dropWhile Text.isBlank)).result = some (e, mid))
    (hmid : mid.dropWhile Text.isBlank = ']' :: rest) :
    (predicate expr ('[' :: s)).result = some (e, rest.dropWhile Text.isBlank) := by
  have hclose : (char ']' (']' :: rest)).result = some (']', rest) := result_char.mpr ⟨rfl, rfl⟩
  unfold predicate
  rw [result_bind, result_spaced_char rfl, Option.bind_some, result_bind, h, Option.bind_some,
    result_bind, result_spaced, hmid, hclose]
  rfl

theorem takes_predicate : Takes (predicate expr) := (Takes.char '[').spaced.bind

theorem predicate_none (h : startsIn (· == '[') (s.dropWhile Text.isBlank) = false) :
    (predicate expr s).result = none := by
  unfold predicate
  rw [result_bind, spaced_char_none h]
  rfl

/-! ## Paths -/

theorem separator_none (h : startsIn (· == '/') (s.dropWhile Text.isBlank) = false) :
    (separator s).result = none := by
  have hdouble : (word "//" (s.dropWhile Text.isBlank)).result = none := word_none rfl h
  have hsingle : (word "/" (s.dropWhile Text.isBlank)).result = none := word_none rfl h
  simp [separator, spelling_none hdouble, spelling_none hsingle]

theorem nextSteps_none (h : startsIn (· == '/') (s.dropWhile Text.isBlank) = false) :
    (nextSteps expr s).result = none := by
  unfold nextSteps
  rw [result_bind, separator_none h]
  rfl

theorem moreSteps_nil (h : startsIn (· == '/') (s.dropWhile Text.isBlank) = false) :
    (moreSteps expr s).result = some ([], s) := by
  simp [moreSteps, result_many_nil (@nextSteps_none _ expr h)]

theorem result_nextSteps (axis : Axis) {next : Step}
    (h : (step expr (axis.name.toList ++ s)).result = some (next, rest)) :
    (nextSteps expr ('/' :: (axis.name.toList ++ s))).result = some ([next], rest) := by
  have hseparator : (separator ('/' :: (axis.name.toList ++ s))).result =
      some (false, axis.name.toList ++ s) := by cases axis <;> rfl
  simp [nextSteps, hseparator, h]

theorem takes_nextSteps : Takes (nextSteps expr) :=
  (Takes.orElse (.spelling (by decide)) (.spelling (by decide))).spaced.bind

theorem word_double_none (hs : startsIn (· == '/') s = false) :
    (word "//" ('/' :: s)).result = none := by
  refine Option.eq_none_iff_forall_ne_some.mpr fun found hfound => ?_
  have heq : '/' :: s = '/' :: '/' :: found.2 := result_word.mp hfound
  rw [(List.cons.inj heq).2] at hs
  cases hs

theorem result_pathStart_root (h : Stops rest) :
    (pathStart expr ('/' :: rest)).result = some ((.root, []), rest) := by
  have hdouble : (word "//" ('/' :: rest)).result = none :=
    word_double_none (h.startsIn (by decide))
  have hsingle : (word "/" ('/' :: rest)).result = some ((), rest) := rfl
  have hblank : rest.dropWhile Text.isBlank = rest := dropBlanks_eq_self (h.startsIn (by decide))
  have hstep : (step expr rest).result = none := step_none h.nonblank (h.startsIn (by decide))
  simp [pathStart, result_optional, hdouble, hsingle, hblank, hstep]

theorem result_pathStart_step (hslash : startsIn (· == '/') s = false) {first : Step}
    (h : (step expr (s.dropWhile Text.isBlank)).result = some (first, rest)) :
    (pathStart expr ('/' :: s)).result = some ((.root, [first]), rest) := by
  have hdouble : (word "//" ('/' :: s)).result = none := word_double_none hslash
  have hsingle : (word "/" ('/' :: s)).result = some ((), s) := rfl
  simp [pathStart, result_optional, hdouble, hsingle, h]

theorem result_pathStart_double {first : Step}
    (h : (step expr (s.dropWhile Text.isBlank)).result = some (first, rest)) :
    (pathStart expr ('/' :: '/' :: s)).result =
      some ((.root, [.toAny .descendantOrSelf, first]), rest) := by
  have hdouble : (word "//" ('/' :: '/' :: s)).result = some ((), s) := rfl
  simp [pathStart, result_optional, hdouble, h]

theorem result_pathStart_context (hslash : startsIn (· == '/') s = false) {first : Step}
    (h : (step expr s).result = some (first, rest)) :
    (pathStart expr s).result = some ((.context, [first]), rest) := by
  have hdouble : (word "//" s).result = none := word_none rfl hslash
  have hsingle : (word "/" s).result = none := word_none rfl hslash
  simp [pathStart, result_optional, hdouble, hsingle, h]

end

end
end XPath.Parser
