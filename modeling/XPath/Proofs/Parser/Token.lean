import XPath.Grammar.Phrase
import XPath.Proofs.Grammar.Scan
import XPath.Proofs.Parser.Result
/-! The parsers of single tokens read tokens. A name or a numeral ends where its run of characters
does. A symbol needs an argument: every longer symbol that begins with it is tried before it. -/
namespace XPath.Parser
set_option autoImplicit false

open Grammar

variable {α : Type} {s mid rest : List Char}

/-! ## Blanks -/

@[simp] theorem result_blanks : (blanks s).result = some ((), s.dropWhile Text.isBlank) := rfl

@[simp] theorem result_spaced (p : Parser α) :
    (spaced p s).result = (p (s.dropWhile Text.isBlank)).result.map
      fun found => (found.1, found.2.dropWhile Text.isBlank) := by
  unfold spaced
  rw [result_bind, result_blanks, Option.bind_some, result_bind]
  cases (p (s.dropWhile Text.isBlank)).result <;> rfl

theorem isNameChar_eq_false_of_isBlank {c : Char} (h : Text.isBlank c = true) :
    isNameChar c = false := by
  refine Bool.eq_false_iff.mpr fun hname => ?_
  have hspace := isSpace_eq_false_of_isPlain (isPlain_of_isNameChar hname)
  rw [Text.isSpace_of_isBlank h] at hspace
  cases hspace

theorem startsIn_of_dropBlanks {cls : Char → Bool}
    (hcls : ∀ c, Text.isBlank c = true → cls c = false)
    (h : startsIn cls (s.dropWhile Text.isBlank) = false) : startsIn cls s = false := by
  cases s with
  | nil => rfl
  | cons c s =>
    by_cases hc : Text.isBlank c = true
    · exact hcls c hc
    · rwa [List.dropWhile_cons_of_neg hc] at h

/-! ## Names -/

theorem startsIn_dropWhile (cls : Char → Bool) : startsIn cls (s.dropWhile cls) = false := by
  induction s with
  | nil => rfl
  | cons c s ih =>
    rw [List.dropWhile_cons]
    split
    · exact ih
    · next hc => simpa [startsIn] using hc

theorem result_simpleName {w : String} :
    (simpleName s).result = some (w, rest) ↔
      IsSimpleName w.toList ∧ s = w.toList ++ rest ∧ startsIn isNameChar rest = false := by
  unfold simpleName
  simp only [result_bind, Option.bind_eq_some_iff, Prod.exists, result_satisfy, result_takeWhile,
    result_pure, Option.some.injEq, Prod.mk.injEq]
  constructor
  · rintro ⟨first, mid, ⟨rfl, hfirst⟩, _, _, ⟨rfl, rfl⟩, rfl, rfl⟩
    rw [String.toList_ofList]
    refine ⟨⟨first, _, rfl, hfirst, fun c hc => List.mem_takeWhile_imp hc⟩, ?_,
      startsIn_dropWhile isNameChar⟩
    rw [List.cons_append, List.takeWhile_append_dropWhile]
  · rintro ⟨⟨first, more, hw, hfirst, hmore⟩, rfl, hends⟩
    obtain ⟨htake, hdrop⟩ := Number.span_append hmore hends
    refine ⟨first, more ++ rest, ⟨by rw [hw]; rfl, hfirst⟩, more, rest, ⟨htake, hdrop⟩, ?_, rfl⟩
    rw [← hw, String.ofList_toList]

theorem exists_qualifiedName {w : String} (h : (qualifiedName s).result = some (w, rest)) :
    ∃ qname : QName, w = qname.text ∧ IsProperName qname ∧ s = qname.text.toList ++ rest ∧
      startsIn isNameChar rest = false := by
  unfold qualifiedName at h
  simp only [result_bind, Option.bind_eq_some_iff, Prod.exists, result_simpleName,
    result_optional] at h
  obtain ⟨first, mid, ⟨hfirst, rfl, hends⟩, found, after, hfound, h⟩ := h
  split at hfound
  · next second after' hsecond =>
    obtain ⟨rfl, rfl⟩ := Prod.mk.inj (Option.some.inj hfound)
    obtain ⟨rfl, rfl⟩ := Prod.mk.inj (Option.some.inj h)
    simp only [Option.bind_eq_some_iff, Prod.exists, result_char, result_simpleName] at hsecond
    obtain ⟨_, _, ⟨rfl, rfl⟩, hsecond, rfl, hends'⟩ := hsecond
    refine ⟨⟨some first, second⟩, rfl, ⟨fun qualifier hq => ?_, hsecond⟩, ?_, hends'⟩
    · obtain rfl := Option.some.inj hq
      exact hfirst
    · simp [QName.text]
  · obtain ⟨rfl, rfl⟩ := Prod.mk.inj (Option.some.inj hfound)
    obtain ⟨rfl, rfl⟩ := Prod.mk.inj (Option.some.inj h)
    exact ⟨.plain first, rfl, ⟨by rintro _ ⟨⟩, hfirst⟩, rfl, hends⟩

/-! ## Literals -/

theorem result_quotedBy {quote : Char} {w : String} :
    (quotedBy quote s).result = some (w, rest) ↔
      quote ∉ w.toList ∧ s = quote :: (w.toList ++ quote :: rest) := by
  unfold quotedBy
  simp only [result_bind, Option.bind_eq_some_iff, Prod.exists, result_char, result_takeWhile,
    result_pure, Option.some.injEq, Prod.mk.injEq]
  constructor
  · rintro ⟨_, mid, ⟨rfl, rfl⟩, _, _, ⟨rfl, rfl⟩, _, _, ⟨hmid, -⟩, rfl, rfl⟩
    rw [String.toList_ofList]
    refine ⟨fun hmem => by simpa using List.mem_takeWhile_imp hmem, ?_⟩
    rw [← hmid, List.takeWhile_append_dropWhile]
  · rintro ⟨hw, rfl⟩
    obtain ⟨htake, hdrop⟩ := @Number.span_append w.toList (· != quote) (quote :: rest)
      (fun c hc => by simpa using fun heq : c = quote => hw (heq ▸ hc)) (by simp)
    exact ⟨quote, _, ⟨rfl, rfl⟩, _, _, ⟨htake, hdrop⟩, quote, rest, ⟨rfl, rfl⟩,
      String.ofList_toList, rfl⟩

theorem result_literal {w : String} :
    (literal s).result = some (w, rest) ↔ (Token.literal w).Leads s rest := by
  unfold literal
  rw [result_orElse, Option.or_eq_some_iff, result_quotedBy, result_quotedBy]
  constructor
  · rintro (⟨hw, hs⟩ | ⟨-, hw, hs⟩)
    · exact ⟨'\'', Or.inl rfl, hw, hs⟩
    · exact ⟨'"', Or.inr rfl, hw, hs⟩
  · rintro ⟨quote, rfl | rfl, hw, rfl⟩
    · exact Or.inl ⟨hw, rfl⟩
    · refine Or.inr ⟨Option.eq_none_iff_forall_ne_some.mpr fun found hfound => ?_, hw, rfl⟩
      obtain ⟨-, heq⟩ := result_quotedBy.mp hfound
      exact absurd (List.cons.inj heq).1 (by decide)

theorem result_char_none {c : Char} :
    (char c s).result = none ↔ startsIn (· == c) s = false := result_satisfy_none

theorem startsIn_or (c : Char) : startsIn (· == c) s = false ∨ ∃ after, s = c :: after := by
  cases s with
  | nil => exact Or.inl rfl
  | cons d s =>
    by_cases h : d = c
    · exact Or.inr ⟨s, by rw [h]⟩
    · exact Or.inl (by simpa [startsIn] using h)

/-! ## Numerals -/

theorem result_digits :
    (digits s).result =
      if s.takeWhile Char.isDigit = [] then none
      else some (s.takeWhile Char.isDigit, s.dropWhile Char.isDigit) := by
  cases s with
  | nil => rfl
  | cons c s => by_cases hc : c.isDigit = true <;> simp [digits, satisfy, result_takeWhile, hc]

/-- The fraction of a numeral, read after its whole part, and what follows it. -/
def afterWhole : List Char → List Char × List Char
  | '.' :: s => (s.takeWhile Char.isDigit, s.dropWhile Char.isDigit)
  | s => ([], s)

theorem afterWhole_eq_self (h : startsIn (· == '.') s = false) : afterWhole s = ([], s) := by
  unfold afterWhole
  split
  · cases h
  · rfl

theorem result_wholeNumeral :
    (wholeNumeral s).result =
      if s.takeWhile Char.isDigit = [] then none
      else
        let (fraction, rest) := afterWhole (s.dropWhile Char.isDigit)
        some (.ofDecimal false (s.takeWhile Char.isDigit) fraction, rest) := by
  unfold wholeNumeral
  rw [result_bind, result_digits]
  split
  · rfl
  rw [Option.bind_some, result_bind, result_optional, Option.bind_some]
  generalize s.dropWhile Char.isDigit = mid
  rcases startsIn_or '.' (s := mid) with hmid | ⟨after, rfl⟩
  · simp [result_char_none.mpr hmid, afterWhole_eq_self hmid]
  · have hpoint : (char '.' ('.' :: after)).result = some ('.', after) := result_char.mpr ⟨rfl, rfl⟩
    rw [result_bind, hpoint, Option.bind_some, result_optional, result_digits]
    by_cases hafter : after.takeWhile Char.isDigit = []
    · have hdrop : after.dropWhile Char.isDigit = after := by
        simpa [hafter] using List.takeWhile_append_dropWhile (p := Char.isDigit) (l := after)
      simp [hafter, hdrop, afterWhole]
    · simp [hafter, afterWhole]

theorem result_pointNumeral {v : Number} :
    (pointNumeral s).result = some (v, rest) ↔
      ∃ fraction, s = '.' :: (fraction ++ rest) ∧ fraction ≠ [] ∧
        (∀ c ∈ fraction, c.isDigit = true) ∧ startsIn Char.isDigit rest = false ∧
        v = .ofDecimal false [] fraction := by
  unfold pointNumeral
  simp only [result_bind, Option.bind_eq_some_iff, Prod.exists, result_char, result_digits,
    result_pure, Option.some.injEq, Prod.mk.injEq, Option.ite_none_left_eq_some]
  constructor
  · rintro ⟨_, mid, ⟨rfl, rfl⟩, _, _, ⟨hfraction, rfl, rfl⟩, rfl, rfl⟩
    exact ⟨_, by rw [List.takeWhile_append_dropWhile], hfraction,
      fun c hc => List.mem_takeWhile_imp hc, startsIn_dropWhile Char.isDigit, rfl⟩
  · rintro ⟨fraction, rfl, hne, hdigits, hrest, rfl⟩
    obtain ⟨htake, hdrop⟩ := Number.span_append hdigits hrest
    exact ⟨_, _, ⟨rfl, rfl⟩, fraction, rest, ⟨by rwa [htake], htake, hdrop⟩, rfl, rfl⟩

theorem result_numeral {v : Number} :
    (numeral s).result = some (v, rest) ↔ (Token.number v).Leads s rest := by
  unfold numeral
  rw [result_orElse, Option.or_eq_some_iff, result_wholeNumeral, result_pointNumeral]
  constructor
  · rintro (h | ⟨-, fraction, rfl, hne, hdigits, hrest, rfl⟩)
    · split at h
      · cases h
      next hwhole =>
      have hsplit := List.takeWhile_append_dropWhile (p := Char.isDigit) (l := s)
      have hends : startsIn Char.isDigit (s.dropWhile Char.isDigit) = false := startsIn_dropWhile _
      have hdigits : ∀ {t : List Char}, ∀ c ∈ t.takeWhile Char.isDigit, c.isDigit = true :=
        fun c hc => List.mem_takeWhile_imp hc
      rcases startsIn_or '.' (s := s.dropWhile Char.isDigit) with hpoint | ⟨after, hafter⟩
      · rw [afterWhole_eq_self hpoint] at h
        obtain ⟨rfl, rfl⟩ := Prod.mk.inj (Option.some.inj h)
        exact ⟨_, _, [], hsplit.symm, Number.numeral?_eq_some_iff.mpr ⟨by simpa using hdigits,
          by simpa using hwhole, Or.inl ⟨rfl, rfl⟩⟩, rfl, hends, Or.inr hpoint⟩
      · rw [hafter] at h hsplit
        simp only [afterWhole, Option.some.injEq, Prod.mk.injEq] at h
        obtain ⟨rfl, rfl⟩ := h
        refine ⟨_, _, after.takeWhile Char.isDigit, ?_, Number.numeral?_eq_some_iff.mpr ⟨?_,
          by simp [hwhole], Or.inr rfl⟩, rfl, startsIn_dropWhile Char.isDigit, Or.inl (by simp)⟩
        · rw [List.append_assoc, List.cons_append, List.takeWhile_append_dropWhile, hsplit]
        · exact fun c hc => (List.mem_append.mp hc).elim (hdigits c) (hdigits c)
    · exact ⟨'.' :: fraction, [], fraction, rfl, Number.numeral?_eq_some_iff.mpr
        ⟨hdigits, hne, Or.inr rfl⟩, rfl, hrest, Or.inl List.mem_cons_self⟩
  · rintro ⟨w, whole, fraction, rfl, hw, rfl, hdigit, hpoint⟩
    obtain ⟨hdigits, hne, hw⟩ := Number.numeral?_eq_some_iff.mp hw
    have hwhole : ∀ c ∈ whole, c.isDigit = true := fun c hc => hdigits c (by simp [hc])
    have hfraction : ∀ c ∈ fraction, c.isDigit = true := fun c hc => hdigits c (by simp [hc])
    rcases hw with ⟨rfl, rfl⟩ | rfl
    · have hstart : startsIn (· == '.') rest = false :=
        hpoint.resolve_left fun hmem => absurd (hwhole _ hmem) (by decide)
      obtain ⟨htake, hdrop⟩ := Number.span_append hwhole hdigit
      left
      rw [htake, hdrop, if_neg (by simpa using hne), afterWhole_eq_self hstart]
    · obtain ⟨htake, hdrop⟩ := @Number.span_append whole Char.isDigit ('.' :: (fraction ++ rest))
        hwhole rfl
      rw [List.append_assoc, List.cons_append, htake, hdrop]
      by_cases hnil : whole = []
      · exact Or.inr ⟨if_pos hnil, fraction, by simp [hnil], by simpa [hnil] using hne, hfraction,
          hdigit, by rw [hnil]⟩
      · obtain ⟨htake, hdrop⟩ := Number.span_append hfraction hdigit
        left
        rw [if_neg hnil]
        simp [afterWhole, htake, hdrop]

/-! ## Symbols -/

/-- The symbols that begin with this text and go on. -/
def extensions (text : String) : List String :=
  symbols.filter fun longer =>
    text.length < longer.length && text.toList.isPrefixOf longer.toList

theorem leads_symbol {text : String} (hmem : text ∈ symbols) (hs : s = text.toList ++ rest)
    (hstuck : ∀ longer ∈ extensions text, (word longer s).result = none) :
    (Token.symbol text).Leads s rest := by
  refine ⟨hmem, hs, fun longer hlonger hle => Nat.le_of_not_lt fun hlt => ?_⟩
  have hbegins : text.toList <+: longer.toList :=
    List.prefix_of_prefix_length_le ⟨rest, hs.symm⟩ hle (by
      simpa only [String.length_toList] using hlt.le)
  have hextension : longer ∈ extensions text := by
    refine List.mem_filter.mpr ⟨hlonger, ?_⟩
    simp [hlt, hbegins]
  obtain ⟨after, hafter⟩ := hle
  have hword : (word longer s).result = some ((), after) := result_word.mpr hafter.symm
  rw [hstuck longer hextension] at hword
  cases hword

theorem result_spelling {text : String} {value v : α} :
    (spelling text value s).result = some (v, rest) ↔ v = value ∧ s = text.toList ++ rest := by
  unfold spelling
  simp only [result_bind, Option.bind_eq_some_iff, Prod.exists, result_word, result_pure,
    Option.some.injEq, Prod.mk.injEq]
  constructor
  · rintro ⟨_, _, hs, rfl, rfl⟩
    exact ⟨rfl, hs⟩
  · rintro ⟨rfl, hs⟩
    exact ⟨(), rest, hs, rfl, rfl⟩

theorem result_spelling_none {text : String} {value : α}
    (h : (spelling text value s).result = none) : (word text s).result = none := by
  refine Option.eq_none_iff_forall_ne_some.mpr fun found hfound => ?_
  have hspelling : (spelling text value s).result = some (value, found.2) :=
    result_spelling.mpr ⟨rfl, result_word.mp hfound⟩
  rw [h] at hspelling
  cases hspelling

/-- Each of these symbols comes after all longer ones that begin with it. -/
def longestFirst (tried : List String) : List String → Bool
  | [] => true
  | text :: more =>
    symbols.contains text && (extensions text).all tried.contains &&
      longestFirst (text :: tried) more

theorem leads_of_tried {choices : List (String × α)} {tried : List String} {v : α}
    (hfirst : longestFirst tried (choices.map Prod.fst) = true)
    (htried : ∀ text ∈ tried, (word text s).result = none)
    (h : (firstOf (choices.map fun choice => spelling choice.1 choice.2) s).result =
      some (v, rest)) :
    ∃ text, (text, v) ∈ choices ∧ (Token.symbol text).Leads s rest := by
  induction choices generalizing tried with
  | nil => cases h
  | cons choice more ih =>
    obtain ⟨text, value⟩ := choice
    simp only [List.map_cons, longestFirst, Bool.and_eq_true, List.contains_iff_mem,
      List.all_eq_true] at hfirst
    obtain ⟨⟨hmem, hlonger⟩, hmore⟩ := hfirst
    rw [List.map_cons, result_firstOf_cons, Option.or_eq_some_iff] at h
    rcases h with h | ⟨hnone, h⟩
    · obtain ⟨rfl, hs⟩ := result_spelling.mp h
      exact ⟨text, List.mem_cons_self,
        leads_symbol hmem hs fun longer hl => htried longer (hlonger longer hl)⟩
    · have htried' : ∀ other ∈ text :: tried, (word other s).result = none := by
        intro other hother
        rcases List.mem_cons.mp hother with rfl | hother
        · exact result_spelling_none hnone
        · exact htried other hother
      obtain ⟨other, hother, hleads⟩ := ih hmore htried' h
      exact ⟨other, List.mem_cons_of_mem _ hother, hleads⟩

theorem leads_of_spellings {choices : List (String × α)} {v : α}
    (hfirst : longestFirst [] (choices.map Prod.fst) = true)
    (h : (firstOf (choices.map fun choice => spelling choice.1 choice.2) s).result =
      some (v, rest)) :
    ∃ text, (text, v) ∈ choices ∧ (Token.symbol text).Leads s rest :=
  leads_of_tried hfirst (by simp) h

theorem isProperName_plain {name : String} (h : IsSimpleName name.toList) :
    IsProperName (.plain name) := ⟨by rintro _ ⟨⟩, h⟩

theorem result_keyword {text : String} {u : Unit} (htext : IsSimpleName text.toList) :
    (keyword text s).result = some (u, rest) ↔ (Token.name (.plain text)).Leads s rest := by
  unfold keyword
  rw [result_wordNotBefore]
  exact ⟨fun h => ⟨isProperName_plain htext, h⟩, fun h => h.2⟩

/-! ## Operators -/

theorem isSimpleName_keyword : ∀ text ∈ ["or", "and", "div", "mod"], IsSimpleName text.toList := by
  decide

/-- The parser of the operators of a level. -/
def operatorOf : Level → Parser BinaryOp
  | .or => orOp
  | .and => andOp
  | .equality => equalityOp
  | .relational => relationalOp
  | .additive => additiveOp
  | .multiplicative => multiplicativeOp
  | .union => unionOp
  | .unary => fail
  | .path => fail

theorem exists_keyword {text : String} {value v : BinaryOp}
    (htext : text ∈ ["or", "and", "div", "mod"])
    (h : ((do keyword text; return value : Parser BinaryOp) s).result = some (v, rest)) :
    v = value ∧ (Token.name (.plain text)).Leads s rest := by
  simp only [result_bind, Option.bind_eq_some_iff, Prod.exists, result_pure, Option.some.injEq,
    Prod.mk.injEq] at h
  obtain ⟨_, _, hword, rfl, rfl⟩ := h
  exact ⟨rfl, (result_keyword (isSimpleName_keyword text htext)).mp hword⟩

theorem exists_operator {level : Level} {op : BinaryOp}
    (h : (operatorOf level s).result = some (op, rest)) :
    ∃ token, (token, op) ∈ level.operators ∧ token.Leads s rest := by
  have hsymbols : ∀ choices : List (String × BinaryOp),
      longestFirst [] (choices.map Prod.fst) = true →
      (firstOf (choices.map fun choice => spelling choice.1 choice.2) s).result = some (op, rest) →
      (∀ choice ∈ choices, (Token.symbol choice.1, choice.2) ∈ level.operators) →
      ∃ token, (token, op) ∈ level.operators ∧ token.Leads s rest := by
    intro choices hfirst hchoices hall
    obtain ⟨text, hmem, hleads⟩ := leads_of_spellings hfirst hchoices
    exact ⟨_, hall _ hmem, hleads⟩
  cases level with
  | or =>
    obtain ⟨rfl, hleads⟩ := exists_keyword (by simp) h
    exact ⟨_, by decide, hleads⟩
  | and =>
    obtain ⟨rfl, hleads⟩ := exists_keyword (by simp) h
    exact ⟨_, by decide, hleads⟩
  | equality =>
    refine hsymbols [("=", .compare .equal), ("!=", .compare .notEqual)] rfl ?_ (by decide)
    simpa [operatorOf, equalityOp] using h
  | relational => exact hsymbols [("<=", .compare .lessEqual), ("&lt;=", .compare .lessEqual),
      (">=", .compare .greaterEqual), ("&gt;=", .compare .greaterEqual),
      ("<", .compare .less), ("&lt;", .compare .less), (">", .compare .greater),
      ("&gt;", .compare .greater)] rfl h (by decide)
  | additive =>
    refine hsymbols [("+", .arith .add), ("-", .arith .subtract)] rfl ?_ (by decide)
    simpa [operatorOf, additiveOp] using h
  | multiplicative =>
    simp only [operatorOf, multiplicativeOp, result_firstOf_cons, Option.or_eq_some_iff] at h
    rcases h with h | ⟨-, h | ⟨-, h | ⟨-, h⟩⟩⟩
    · refine hsymbols [("*", .arith .multiply)] rfl ?_ (by decide)
      simpa using h
    · obtain ⟨rfl, hleads⟩ := exists_keyword (by simp) h
      exact ⟨_, by decide, hleads⟩
    · obtain ⟨rfl, hleads⟩ := exists_keyword (by simp) h
      exact ⟨_, by decide, hleads⟩
    · cases h
  | union =>
    refine hsymbols [("|", .union)] rfl ?_ (by decide)
    simpa [operatorOf, unionOp] using h
  | unary => cases h
  | path => cases h

/-! ## Axes and node types -/

theorem isSimpleName_axis (axis : Axis) : IsSimpleName axis.name.toList := by
  cases axis <;> decide

/-- What the name of a node type says of the test. -/
def IsType (name : String) (type : Option NodeTest) : Prop :=
  (name, type.getD (.instruction none)) ∈ Grammar.nodeTypes ∧
    (type = none → name = "processing-instruction")

theorem exists_nodeType {type : Option NodeTest} (h : (nodeType s).result = some (type, rest)) :
    ∃ name, IsType name type ∧ IsSimpleName name.toList ∧ s = name.toList ++ rest := by
  obtain ⟨p, hp, h⟩ := exists_of_firstOf h
  simp only [List.mem_cons, List.not_mem_nil, or_false] at hp
  rcases hp with rfl | rfl | rfl | rfl <;> obtain ⟨rfl, hs⟩ := result_spelling.mp h
  all_goals exact ⟨_, ⟨by decide, by simp⟩, by decide, hs⟩

end XPath.Parser
