import XPath.Proofs.Grammar.Phrase
import XPath.Proofs.Parser.Soundness
import XPath.Proofs.Parser.Taken
/-! What is read of a text does not change when the text goes on with white space, nor when a
closing bracket follows a text that has closed its own. Two runs of the parser are compared, one on
the text and one on the longer text: they take the same characters and end with texts that are still
related. Only where the shorter text ends may the runs see different characters, and no token but a
bracket that is still open begins with these. -/
namespace XPath.Parser
set_option autoImplicit false

open Grammar

variable {n n' k j : Nat} {s s' t u w : List Char} {c : Char}

/-! ## Open brackets -/

/-- The text closes `k` brackets that were opened before it and all that it opens itself, and it
ends outside of literals. Sorts of brackets do not matter. -/
inductive Closes : Nat → List Char → Prop
  | nil : Closes 0 []
  | other {k : Nat} {c : Char} {s : List Char} :
    isQuote c = false → isBracket c = false → Closes k s → Closes k (c :: s)
  | literal {k : Nat} {quote : Char} {w s : List Char} :
    isQuote quote = true → quote ∉ w → Closes k s → Closes k (quote :: (w ++ quote :: s))
  | opening {k : Nat} {c : Char} {s : List Char} :
    c = '(' ∨ c = '[' → Closes (k + 1) s → Closes k (c :: s)
  | closing {k : Nat} {c : Char} {s : List Char} :
    c = ')' ∨ c = ']' → Closes k s → Closes (k + 1) (c :: s)

theorem Closes.append_of_plain (hw : ∀ c ∈ w, isQuote c = false ∧ isBracket c = false)
    (h : Closes k s) : Closes k (w ++ s) := by
  induction w with
  | nil => exact h
  | cons c w ih =>
    obtain ⟨hquote, hbracket⟩ := hw c List.mem_cons_self
    exact .other hquote hbracket (ih fun c hc => hw c (List.mem_cons_of_mem _ hc))

theorem Closes.append_of_balanced (hw : Balanced w) (h : Closes k s) : Closes k (w ++ s) := by
  induction hw generalizing k s with
  | nil => exact h
  | round _ _ ihinner ihafter =>
    rw [List.cons_append, List.append_assoc]
    exact .opening (Or.inl rfl) (ihinner (.closing (Or.inl rfl) (ihafter h)))
  | square _ _ ihinner ihafter =>
    rw [List.cons_append, List.append_assoc]
    exact .opening (Or.inr rfl) (ihinner (.closing (Or.inr rfl) (ihafter h)))

/-- After a character outside of literals, the text may be exchanged. -/
theorem Closes.cons_congr (hc : isQuote c = false) (h : Closes k (c :: s))
    (hs : ∀ j, Closes j s → Closes j t) : Closes k (c :: t) := by
  cases h with
  | other hquote hbracket h => exact .other hquote hbracket (hs _ h)
  | literal hquote _ _ =>
    rw [hc] at hquote
    cases hquote
  | opening hc h => exact .opening hc (hs _ h)
  | closing hc h => exact .closing hc (hs _ h)

theorem not_quote_bracket_of_isPlain (h : isPlain c = true) :
    isQuote c = false ∧ isBracket c = false :=
  ⟨isQuote_eq_false_of_isPlain h, isBracket_eq_false_of_isPlain h⟩

theorem closes_of_leads {token : Token} {mid v : List Char} (ht : token.Leads s mid)
    (hmid : ∀ j, Closes j v → Closes j mid) (h : Closes k (token.brackets ++ v)) : Closes k s := by
  have hplain : ∀ {w : List Char}, (∀ c ∈ w, isPlain c = true) → Closes k mid →
      Closes k (w ++ mid) :=
    fun hw h => h.append_of_plain fun c hc => not_quote_bracket_of_isPlain (hw c hc)
  cases token with
  | symbol text =>
    obtain ⟨hmem, rfl, -⟩ := ht
    have hsymbols : ∀ text ∈ symbols, (∃ c ∈ ['(', ')', '[', ']'], text.toList = [c]) ∨
        ∀ c ∈ text.toList, isQuote c = false ∧ isBracket c = false := by decide
    have hbrackets : (Token.symbol text).brackets = text.toList.filter isBracket := rfl
    rw [hbrackets] at h
    rcases hsymbols text hmem with ⟨c, hc, heq⟩ | hother
    · have hspec : ∀ c ∈ ['(', ')', '[', ']'], isQuote c = false ∧ isBracket c = true := by decide
      obtain ⟨hquote, hbracket⟩ := hspec c hc
      rw [heq, List.filter_singleton, hbracket] at h
      rw [heq]
      exact h.cons_congr hquote hmid
    · rw [List.filter_eq_nil_iff.mpr fun c hc => by simp [(hother c hc).2]] at h
      exact (hmid k h).append_of_plain hother
  | name qname =>
    obtain ⟨hname, rfl, -⟩ := ht
    exact hplain hname.isPlain (hmid k h)
  | anyWith qualifier =>
    obtain ⟨hname, rfl⟩ := ht
    refine Closes.append_of_plain (fun c hc => ?_) (.other rfl rfl (.other rfl rfl (hmid k h)))
    exact not_quote_bracket_of_isPlain (isPlain_of_isNameChar (hname.isNameChar c hc))
  | reference qname =>
    obtain ⟨hname, rfl, -⟩ := ht
    exact .other rfl rfl (hplain hname.isPlain (hmid k h))
  | literal text =>
    obtain ⟨quote, hquote, hmem, rfl⟩ := ht
    refine .literal ?_ hmem (hmid k h)
    rcases hquote with rfl | rfl <;> rfl
  | number value =>
    obtain ⟨w, whole, fraction, rfl, hw, -⟩ := ht
    exact hplain (isPlain_numeral hw).2 (hmid k h)

theorem not_quote_bracket_of_isSpace (h : Text.isSpace c = true) :
    isQuote c = false ∧ isBracket c = false := by
  have hall : ∀ n ∈ spaceCodes, isQuote (Char.ofNat n) = false ∧
      isBracket (Char.ofNat n) = false := by decide
  have hc := hall c.toNat (mem_spaceCodes h)
  rwa [Char.ofNat_toNat] at hc

theorem closes_of_scan {tokens : List Token} {rest : List Char} (h : Scan s tokens rest)
    (hrest : Closes 0 rest) (hk : Closes k (tokens.flatMap Token.brackets ++ rest)) :
    Closes k s := by
  induction h generalizing k with
  | done => exact hk
  | blank hc _ ih =>
    obtain ⟨hquote, hbracket⟩ := not_quote_bracket_of_isSpace (Text.isSpace_of_isBlank hc)
    exact .other hquote hbracket (ih hrest hk)
  | token ht _ ih =>
    rw [List.flatMap_cons, List.append_assoc] at hk
    exact closes_of_leads ht (fun j hj => ih hrest hj) hk

/-- A text that is read up to white space closes all its brackets. -/
theorem closes_of_exprWithin {e : Expr} {rest : List Char}
    (h : (exprWithin n s).result = some (e, rest)) (hrest : ∀ c ∈ rest, Text.isSpace c = true) :
    Closes 0 s := by
  obtain ⟨tokens, hscan, hderives⟩ := sound_exprWithin n s e rest h
  have hspace : Closes 0 rest := by
    have happend := Closes.nil.append_of_plain fun c hc => not_quote_bracket_of_isSpace (hrest c hc)
    rwa [List.append_nil] at happend
  exact closes_of_scan hscan hspace (hspace.append_of_balanced hderives.balanced)

/-! ## A text and a longer one -/

/-- What may follow a text: any white space if `u` is empty, or `u` itself if it begins with a
closing bracket and the text has closed its own. -/
def Harmless (u : List Char) (k : Nat) (s t : List Char) : Prop :=
  u = [] ∧ (∀ c ∈ t, Text.isSpace c = true) ∨
    t = u ∧ Closes k s ∧ startsIn (fun c => c == ')' || c == ']') u = true

/-- The second text continues the first, with `k` brackets open before both. The lengths are below
the depths that the parser allows on each. -/
structure Near (u : List Char) (n n' k : Nat) (s s' : List Char) : Prop where
  short : s.length < n
  short' : s'.length < n'
  continues : ∃ t, s' = s ++ t ∧ Harmless u k s t

/-- A character that does not end an expression. -/
def isInner (c : Char) : Bool := !(Text.isSpace c || isQuote c || isBracket c)

theorem isInner_of_isPlain (h : isPlain c = true) : isInner c = true := by
  simp [isInner, isSpace_eq_false_of_isPlain h, not_quote_bracket_of_isPlain h]

/-- The longer text goes on where the first one has ended. -/
theorem Near.startsIn_of_nil (h : Near u n n' k [] s') {cls : Char → Bool}
    (hspace : ∀ c, Text.isSpace c = true → cls c = false)
    (hclosing : k = 0 → cls ')' = false ∧ cls ']' = false) : startsIn cls s' = false := by
  obtain ⟨t, rfl, ⟨-, hall⟩ | ⟨rfl, hcloses, ht⟩⟩ := h.continues
  · cases s' with
    | nil => rfl
    | cons c s' => exact hspace c (hall c List.mem_cons_self)
  · cases hcloses
    obtain ⟨hround, hsquare⟩ := hclosing rfl
    refine startsIn_disjoint ht fun c hc => ?_
    simp only [Bool.or_eq_true, beq_iff_eq] at hc
    rcases hc with rfl | rfl
    · exact hround
    · exact hsquare

theorem Near.exists_cons (h : Near u n n' k (c :: s) s') :
    ∃ r, s' = c :: r ∧ ∃ t, r = s ++ t ∧ Harmless u k (c :: s) t := by
  obtain ⟨t, rfl, ht⟩ := h.continues
  exact ⟨s ++ t, rfl, t, rfl, ht⟩

theorem Near.tail (h : Near u n n' k (c :: s) (c :: s'))
    (hc : isQuote c = false ∧ isBracket c = false) : Near u n n' k s s' := by
  obtain ⟨r, heq, t, rfl, ht⟩ := h.exists_cons
  obtain rfl := (List.cons.inj heq).2
  refine ⟨Nat.lt_of_succ_lt h.short, Nat.lt_of_succ_lt h.short', t, rfl, ?_⟩
  refine ht.imp_right fun ⟨hu, hcloses, ht⟩ => ⟨hu, ?_, ht⟩
  cases hcloses with
  | other _ _ h => exact h
  | literal hquote _ _ =>
    rw [hc.1] at hquote
    cases hquote
  | opening hbracket _ => rcases hbracket with rfl | rfl <;> cases hc.2
  | closing hbracket _ => rcases hbracket with rfl | rfl <;> cases hc.2

theorem Near.opening (h : Near u (n + 1) (n' + 1) k (c :: s) (c :: s')) (hc : c = '(' ∨ c = '[') :
    Near u n n' (k + 1) s s' := by
  obtain ⟨r, heq, t, rfl, ht⟩ := h.exists_cons
  obtain rfl := (List.cons.inj heq).2
  refine ⟨Nat.lt_of_succ_lt_succ h.short, Nat.lt_of_succ_lt_succ h.short', t, rfl, ?_⟩
  refine ht.imp_right fun ⟨hu, hcloses, ht⟩ => ⟨hu, ?_, ht⟩
  cases hcloses with
  | other _ hbracket _ => rcases hc with rfl | rfl <;> cases hbracket
  | literal hquote _ _ => rcases hc with rfl | rfl <;> cases hquote
  | opening _ h => exact h
  | closing hbracket _ => rcases hc with rfl | rfl <;> exact absurd hbracket (by decide)

theorem Near.closing (h : Near u n n' (k + 1) (c :: s) (c :: s')) (hc : c = ')' ∨ c = ']') :
    Near u (n + 1) (n' + 1) k s s' := by
  obtain ⟨r, heq, t, rfl, ht⟩ := h.exists_cons
  obtain rfl := (List.cons.inj heq).2
  have hshort := h.short
  have hshort' := h.short'
  rw [List.length_cons] at hshort hshort'
  refine ⟨by omega, by omega, t, rfl, ht.imp_right fun ⟨hu, hcloses, ht⟩ => ⟨hu, ?_, ht⟩⟩
  cases hcloses with
  | other _ hbracket _ => rcases hc with rfl | rfl <;> cases hbracket
  | literal hquote _ _ => rcases hc with rfl | rfl <;> cases hquote
  | opening hbracket _ => rcases hc with rfl | rfl <;> exact absurd hbracket (by decide)
  | closing _ h => exact h

theorem Near.startsIn_eq (h : Near u n n' k s s') {cls : Char → Bool}
    (hspace : ∀ c, Text.isSpace c = true → cls c = false)
    (hclosing : k = 0 → cls ')' = false ∧ cls ']' = false) : startsIn cls s = startsIn cls s' := by
  cases s with
  | nil => exact (h.startsIn_of_nil hspace hclosing).symm
  | cons c s =>
    obtain ⟨r, rfl, -⟩ := h.exists_cons
    rfl

theorem Near.dropBlanks (h : Near u n n' k s s') :
    Near u n n' k (s.dropWhile Text.isBlank) (s'.dropWhile Text.isBlank) := by
  induction s generalizing s' with
  | nil =>
    obtain ⟨t, heq, ht⟩ := h.continues
    obtain rfl : s' = t := heq
    have hle := (List.dropWhile_suffix Text.isBlank (l := s')).length_le
    refine ⟨h.short, Nat.lt_of_le_of_lt hle h.short', _, rfl, ?_⟩
    rcases ht with ⟨hu, hall⟩ | ⟨rfl, hcloses, ht⟩
    · exact Or.inl ⟨hu, fun c hc => hall c ((List.dropWhile_suffix _).subset hc)⟩
    have hblank : startsIn Text.isBlank s' = false := startsIn_disjoint ht fun c hc =>
      isBlank_eq_false (fun c => c == ')' || c == ']') hc (by decide)
    exact Or.inr ⟨dropBlanks_eq_self hblank, hcloses, ht⟩
  | cons c s ih =>
    obtain ⟨r, rfl, -⟩ := h.exists_cons
    by_cases hc : Text.isBlank c = true
    · have htail := h.tail (not_quote_bracket_of_isSpace (Text.isSpace_of_isBlank hc))
      rw [List.dropWhile_cons_of_pos hc, List.dropWhile_cons_of_pos hc]
      exact ih htail
    · rwa [List.dropWhile_cons_of_neg hc, List.dropWhile_cons_of_neg hc]

/-! ## Combinators -/

section
variable {α β γ : Type} {p q p' q' : Parser α} {f g : α → Parser β} {v : α}
  {T S R : List Char → List Char → Prop}

/-- On texts related by `T` both parsers are stuck, or both read the same and leave texts related by
`S`. -/
def Alike (T S : List Char → List Char → Prop) (p q : Parser α) : Prop :=
  ∀ s s', T s s' → (p s).result = none ∧ (q s').result = none ∨
    ∃ v rest rest', (p s).result = some (v, rest) ∧ (q s').result = some (v, rest') ∧ S rest rest'

/-- The parsers run alike on a text and a longer one, with as many brackets open afterwards. -/
abbrev Lockstep (u : List Char) (n n' k : Nat) (p q : Parser α) : Prop :=
  Alike (Near u n n' k) (Near u n n' k) p q

theorem Alike.pure (v : α) : Alike T T (pure v : Parser α) (pure v) :=
  fun s s' h => Or.inr ⟨v, s, s', rfl, rfl, h⟩

theorem Alike.fail : Alike T S (fail : Parser α) fail := fun _ _ _ => Or.inl ⟨rfl, rfl⟩

theorem Alike.bind (hp : Alike T S p q) (hf : ∀ v, Alike S R (f v) (g v)) :
    Alike T R (p >>= f) (q >>= g) := by
  intro s s' h
  rw [result_bind, result_bind]
  rcases hp s s' h with ⟨hp, hq⟩ | ⟨v, rest, rest', hp, hq, hrest⟩ <;> rw [hp, hq]
  · exact Or.inl ⟨rfl, rfl⟩
  · exact hf v rest rest' hrest

theorem Alike.map {h : α → γ} (hp : Alike T S p q) : Alike T S (h <$> p) (h <$> q) :=
  hp.bind fun _ => .pure _

theorem Alike.orElse (hp : Alike T S p q) (hp' : Alike T S p' q') :
    Alike T S (p <|> p') (q <|> q') := by
  intro s s' h
  rw [result_orElse, result_orElse]
  rcases hp s s' h with ⟨hp, hq⟩ | ⟨v, rest, rest', hp, hq, hrest⟩ <;> rw [hp, hq]
  · exact hp' s s' h
  · exact Or.inr ⟨v, rest, rest', rfl, rfl, hrest⟩

theorem Alike.firstOf {choices choices' : List (Parser α)}
    (h : List.Forall₂ (Alike T S) choices choices') :
    Alike T S (firstOf choices) (firstOf choices') := by
  induction h with
  | nil => exact .fail
  | cons hp _ ih => exact .orElse hp ih

theorem Alike.firstOf_self {choices : List (Parser α)} (h : ∀ p ∈ choices, Alike T S p p) :
    Alike T S (XPath.Parser.firstOf choices) (XPath.Parser.firstOf choices) :=
  .firstOf (List.forall₂_same.mpr h)

theorem Alike.optional (hp : Alike T T p q) : Alike T T (optional p) (optional q) :=
  .orElse hp.map (.pure _)

theorem Alike.peek (hp : Alike T S p q) : Alike T T (peek p) (peek q) := by
  intro s s' h
  rw [result_peek, result_peek]
  rcases hp s s' h with ⟨hp, hq⟩ | ⟨v, rest, rest', hp, hq, -⟩ <;> rw [hp, hq]
  · exact Or.inl ⟨rfl, rfl⟩
  · exact Or.inr ⟨v, s, s', rfl, rfl, h⟩

theorem Alike.many (hp : Alike T T p q) (hcounts : Counts p) (htakes : Takes p)
    (hcounts' : Counts q) (htakes' : Takes q) : Alike T T (many p) (many q) := by
  intro s s' h
  induction hlength : s.length using Nat.strong_induction_on generalizing s s' with
  | _ m ih =>
    rcases hp s s' h with ⟨hp, hq⟩ | ⟨v, rest, rest', hp, hq, hrest⟩
    · exact Or.inr ⟨[], s, s', result_many_nil hp, result_many_nil hq, h⟩
    · have hlt := hcounts.length_lt htakes hp
      rw [result_many_step hcounts htakes hp, result_many_step hcounts' htakes' hq]
      rcases ih _ (hlength ▸ hlt) _ _ hrest rfl with
        ⟨hmore, hmore'⟩ | ⟨vs, final, final', hmore, hmore', hfinal⟩ <;> rw [hmore, hmore']
      · exact Or.inl ⟨rfl, rfl⟩
      · exact Or.inr ⟨v :: vs, final, final', rfl, rfl, hfinal⟩

end

/-! ## Tokens -/

section
variable {α β : Type} {p q : Parser α} {cls : Char → Bool} {text : String} {quote : Char}
  {m m' : Nat} {rest : List Char}

theorem isInner_spec (h : isInner c = true) :
    Text.isSpace c = false ∧ isQuote c = false ∧ isBracket c = false := by
  simpa [isInner, and_assoc] using h

theorem eq_false_of_isSpace (hcls : ∀ c, cls c = true → isInner c = true) :
    ∀ c, Text.isSpace c = true → cls c = false := by
  refine fun c hc => Bool.eq_false_iff.mpr fun h => ?_
  rw [(isInner_spec (hcls c h)).1] at hc
  cases hc

theorem eq_false_of_closing (hcls : ∀ c, cls c = true → isInner c = true) :
    cls ')' = false ∧ cls ']' = false :=
  ⟨Bool.eq_false_iff.mpr fun h => absurd (hcls _ h) (by decide),
    Bool.eq_false_iff.mpr fun h => absurd (hcls _ h) (by decide)⟩

theorem alike_blanks : Lockstep u n n' k blanks blanks :=
  fun _ _ h => Or.inr ⟨(), _, _, rfl, rfl, h.dropBlanks⟩

theorem Alike.spaced (hp : Alike (Near u n n' k) (Near u m m' j) p q) :
    Alike (Near u n n' k) (Near u m m' j) (spaced p) (spaced q) :=
  alike_blanks.bind fun _ => hp.bind fun _ => alike_blanks.bind fun _ => .pure _

theorem alike_satisfy (hcls : ∀ c, cls c = true → isInner c = true) :
    Lockstep u n n' k (satisfy cls) (satisfy cls) := by
  intro s s' h
  cases s with
  | nil =>
    have hs' := h.startsIn_of_nil (eq_false_of_isSpace hcls) fun _ => eq_false_of_closing hcls
    exact Or.inl ⟨rfl, result_satisfy_none.mpr hs'⟩
  | cons c s =>
    obtain ⟨r, rfl, -⟩ := h.exists_cons
    by_cases hc : cls c = true
    · exact Or.inr ⟨c, s, r, result_satisfy.mpr ⟨rfl, hc⟩, result_satisfy.mpr ⟨rfl, hc⟩,
        h.tail (isInner_spec (hcls c hc)).2⟩
    · simp only [Bool.not_eq_true] at hc
      exact Or.inl ⟨result_satisfy_none.mpr hc, result_satisfy_none.mpr hc⟩

theorem alike_char (hc : isInner c = true) : Lockstep u n n' k (char c) (char c) :=
  alike_satisfy fun d hd => by
    obtain rfl : d = c := by simpa using hd
    exact hc

theorem alike_takeWhile (hcls : ∀ c, cls c = true → isInner c = true) :
    Lockstep u n n' k (takeWhile cls) (takeWhile cls) := by
  intro s s' h
  suffices hs : s.takeWhile cls = s'.takeWhile cls ∧
      Near u n n' k (s.dropWhile cls) (s'.dropWhile cls) by
    refine Or.inr ⟨s.takeWhile cls, _, s'.dropWhile cls, rfl, ?_, hs.2⟩
    rw [hs.1]
    rfl
  induction s generalizing s' with
  | nil =>
    have hs' := h.startsIn_of_nil (eq_false_of_isSpace hcls) fun _ => eq_false_of_closing hcls
    cases s' with
    | nil => exact ⟨rfl, h⟩
    | cons d s' =>
      have hd : cls d = false := hs'
      simpa [hd] using h
  | cons c s ih =>
    obtain ⟨r, rfl, -⟩ := h.exists_cons
    by_cases hc : cls c = true
    · obtain ⟨htake, hdrop⟩ := ih r (h.tail (isInner_spec (hcls c hc)).2)
      simp [hc, htake, hdrop]
    · simpa [hc] using h

theorem Near.split (h : Near u n n' k s s') (hw : ∀ c ∈ w, isInner c = true) :
    (∃ r r', s = w ++ r ∧ s' = w ++ r' ∧ Near u n n' k r r') ∨ ¬ w <+: s ∧ ¬ w <+: s' := by
  induction w generalizing s s' with
  | nil => exact Or.inl ⟨s, s', rfl, rfl, h⟩
  | cons c w ih =>
    have hc : isInner c = true := hw c List.mem_cons_self
    cases s with
    | nil =>
      have hcls : ∀ d, (d == c) = true → isInner d = true := fun d hd => by
        obtain rfl : d = c := by simpa using hd
        exact hc
      have hs' := h.startsIn_of_nil (eq_false_of_isSpace hcls) fun _ => eq_false_of_closing hcls
      refine Or.inr ⟨by simp, ?_⟩
      rintro ⟨r, rfl⟩
      simp [startsIn] at hs'
    | cons d s =>
      obtain ⟨r, rfl, -⟩ := h.exists_cons
      by_cases hd : c = d
      · subst hd
        simp only [List.cons_prefix_cons, true_and, List.cons_append, List.cons.injEq]
        exact ih (h.tail (isInner_spec hc).2) fun c hc => hw c (List.mem_cons_of_mem _ hc)
      · refine Or.inr ⟨?_, ?_⟩ <;> simp [List.cons_prefix_cons, hd]

theorem word_none_of_other (h : ¬ text.toList <+: s) : (word text s).result = none :=
  Option.eq_none_iff_forall_ne_some.mpr fun _ hfound => h ⟨_, (result_word.mp hfound).symm⟩

theorem alike_word (htext : ∀ c ∈ text.toList, isInner c = true) :
    Lockstep u n n' k (word text) (word text) := by
  intro s s' h
  rcases h.split htext with ⟨r, r', rfl, rfl, hr⟩ | ⟨hs, hs'⟩
  · exact Or.inr ⟨(), r, r', result_word.mpr rfl, result_word.mpr rfl, hr⟩
  · exact Or.inl ⟨word_none_of_other hs, word_none_of_other hs'⟩

theorem alike_spelling {value : α} (htext : ∀ c ∈ text.toList, isInner c = true) :
    Lockstep u n n' k (spelling text value) (spelling text value) :=
  (alike_word htext).bind fun _ => .pure value

theorem isInner_of_isNameChar (h : isNameChar c = true) : isInner c = true :=
  isInner_of_isPlain (isPlain_of_isNameChar h)

theorem alike_keyword (htext : ∀ c ∈ text.toList, isInner c = true) :
    Lockstep u n n' k (keyword text) (keyword text) := by
  have hnone : ∀ {s : List Char}, (∀ r, s = text.toList ++ r → startsIn isNameChar r = true) →
      (keyword text s).result = none := by
    intro s hs
    refine Option.eq_none_iff_forall_ne_some.mpr fun found hfound => ?_
    obtain ⟨heq, hends⟩ := result_wordNotBefore.mp hfound
    exact Bool.false_ne_true (hends.symm.trans (hs _ heq))
  intro s s' h
  rcases h.split htext with ⟨r, r', rfl, rfl, hr⟩ | ⟨hs, hs'⟩
  · have hinner : ∀ c, isNameChar c = true → isInner c = true := fun _ => isInner_of_isNameChar
    have heq := hr.startsIn_eq (eq_false_of_isSpace hinner) fun _ => eq_false_of_closing hinner
    cases hends : startsIn isNameChar r with
    | true =>
      refine Or.inl ⟨hnone fun u hu => ?_, hnone fun u hu => ?_⟩
      · rwa [← List.append_cancel_left hu]
      · rwa [← List.append_cancel_left hu, ← heq]
    | false =>
      exact Or.inr ⟨(), r, r', result_wordNotBefore.mpr ⟨rfl, hends⟩,
        result_wordNotBefore.mpr ⟨rfl, heq.symm.trans hends⟩, hr⟩
  · exact Or.inl ⟨hnone fun r hr => absurd ⟨r, hr.symm⟩ hs,
      hnone fun r hr => absurd ⟨r, hr.symm⟩ hs'⟩

/-! ### Brackets -/

theorem alike_char_of {T S : List Char → List Char → Prop}
    (hnil : ∀ s', T [] s' → startsIn (· == c) s' = false)
    (hhead : ∀ d s s', T (d :: s) s' → ∃ r, s' = d :: r)
    (htail : ∀ s r, T (c :: s) (c :: r) → S s r) : Alike T S (char c) (char c) := by
  intro s s' h
  cases s with
  | nil => exact Or.inl ⟨rfl, result_char_none.mpr (hnil s' h)⟩
  | cons d s =>
    obtain ⟨r, rfl⟩ := hhead d s s' h
    by_cases hd : d = c
    · subst hd
      exact Or.inr ⟨d, s, r, result_char.mpr ⟨rfl, rfl⟩, result_char.mpr ⟨rfl, rfl⟩, htail s r h⟩
    · have hnone : (d == c) = false := by simpa using hd
      exact Or.inl ⟨result_char_none.mpr hnone, result_char_none.mpr hnone⟩

theorem alike_opening (hc : c = '(' ∨ c = '[') :
    Alike (Near u (n + 1) (n' + 1) k) (Near u n n' (k + 1)) (char c) (char c) := by
  refine alike_char_of (fun s' h => h.startsIn_of_nil (beq_eq_false_of_class ?_) fun _ => ?_)
    (fun d s s' h => h.exists_cons.imp fun _ => And.left) fun s r h => h.opening hc
  all_goals rcases hc with rfl | rfl <;> decide

/-- A bracket is closed inside of one, so the text has not ended before it. -/
theorem alike_closing (hc : c = ')' ∨ c = ']') :
    Alike (Near u n n' (k + 1)) (Near u (n + 1) (n' + 1) k) (char c) (char c) := by
  refine alike_char_of (fun s' h => h.startsIn_of_nil (beq_eq_false_of_class ?_) nofun)
    (fun d s s' h => h.exists_cons.imp fun _ => And.left) fun s r h => h.closing hc
  rcases hc with rfl | rfl <;> rfl

/-! ### Literals and names -/

theorem Closes.exists_quotedBy (hquote : isQuote quote = true) (h : Closes k (quote :: s)) :
    ∃ v rest, (quotedBy quote (quote :: s)).result = some (v, rest) ∧ Closes k rest := by
  cases h with
  | other hc _ _ =>
    rw [hquote] at hc
    cases hc
  | literal _ hw h =>
    exact ⟨_, _, result_quotedBy.mpr
      ⟨by rwa [String.toList_ofList], by rw [String.toList_ofList]⟩, h⟩
  | opening hc _ => rcases hc with rfl | rfl <;> cases hquote
  | closing hc _ => rcases hc with rfl | rfl <;> cases hquote

theorem exists_quotedBy_of_mem (h : quote ∈ s) :
    ∃ found, (quotedBy quote (quote :: s)).result = some found := by
  obtain ⟨w, u, rfl, hw⟩ := List.eq_append_cons_of_mem h
  exact ⟨(String.ofList w, u), result_quotedBy.mpr
    ⟨by rwa [String.toList_ofList], by rw [String.toList_ofList]⟩⟩

theorem alike_quotedBy (hquote : isQuote quote = true) :
    Lockstep u n n' k (quotedBy quote) (quotedBy quote) := by
  intro s s' h
  obtain ⟨t, rfl, ht⟩ := h.continues
  cases hread : (quotedBy quote s).result with
  | some found =>
    obtain ⟨v, rest⟩ := found
    obtain ⟨hv, rfl⟩ := result_quotedBy.mp hread
    refine Or.inr ⟨v, rest, rest ++ t, rfl, result_quotedBy.mpr ⟨hv, by simp⟩, ?_⟩
    have hshort := h.short
    have hshort' := h.short'
    simp only [List.length_cons, List.length_append] at hshort hshort'
    have hharmless : Harmless u k rest t := by
      refine ht.imp_right fun ⟨hu, hcloses, ht⟩ => ⟨hu, ?_, ht⟩
      obtain ⟨v', rest', hread', hrest⟩ := hcloses.exists_quotedBy hquote
      obtain ⟨-, rfl⟩ := Prod.mk.inj (Option.some.inj (hread'.symm.trans hread))
      exact hrest
    exact ⟨by omega, by rw [List.length_append]; omega, t, rfl, hharmless⟩
  | none =>
    refine Or.inl ⟨rfl, Option.eq_none_iff_forall_ne_some.mpr fun found hfound => ?_⟩
    obtain ⟨-, hs'⟩ := result_quotedBy.mp hfound
    cases s with
    | nil =>
      have hother : ∀ {d : Char}, isQuote d = false → (d == quote) = false := by
        intro d hd
        rw [BEq.comm]
        exact beq_eq_false_of_class hd quote hquote
      have hspace : ∀ d, Text.isSpace d = true → (d == quote) = false :=
        fun d hd => hother (not_quote_bracket_of_isSpace hd).1
      have hnone : startsIn (· == quote) ([] ++ t) = false :=
        h.startsIn_of_nil hspace fun _ => ⟨hother rfl, hother rfl⟩
      rw [hs'] at hnone
      simp [startsIn] at hnone
    | cons c s =>
      obtain ⟨rfl, htail⟩ := List.cons.inj hs'
      -- The closing quote does not stand in what follows.
      have htext : s ++ t = found.1.toList ++ c :: found.2 := htail
      have hmem : c ∈ s ∨ c ∈ t := List.mem_append.mp (by rw [htext]; simp)
      rcases ht with ⟨-, hspace⟩ | ⟨-, hcloses, -⟩
      · rcases hmem with hmem | hmem
        · obtain ⟨found', hfound'⟩ := exists_quotedBy_of_mem hmem
          rw [hread] at hfound'
          cases hfound'
        · rw [(not_quote_bracket_of_isSpace (hspace c hmem)).1] at hquote
          cases hquote
      · obtain ⟨v, rest, hsome, -⟩ := hcloses.exists_quotedBy hquote
        rw [hread] at hsome
        cases hsome

theorem alike_literal : Lockstep u n n' k literal literal :=
  .orElse (alike_quotedBy rfl) (alike_quotedBy rfl)

theorem alike_simpleName : Lockstep u n n' k simpleName simpleName :=
  (alike_satisfy fun _ hc => isInner_of_isNameChar (isNameChar_of_isNameStart hc)).bind fun _ =>
    (alike_takeWhile fun _ => isInner_of_isNameChar).bind fun _ => .pure _

theorem alike_qualifiedName : Lockstep u n n' k qualifiedName qualifiedName := by
  refine alike_simpleName.bind fun first => ?_
  refine ((alike_char (by decide)).bind fun _ => alike_simpleName).optional.bind fun second => ?_
  cases second <;> exact .pure _

theorem alike_digits : Lockstep u n n' k digits digits := by
  have hdigit : ∀ c, Char.isDigit c = true → isInner c = true :=
    fun _ hc => isInner_of_isPlain (isPlain_of_isDigit hc)
  exact (alike_satisfy hdigit).bind fun _ => (alike_takeWhile hdigit).bind fun _ => .pure _

theorem alike_numeral : Lockstep u n n' k numeral numeral := by
  have hpoint : Lockstep u n n' k (char '.') (char '.') :=
    alike_char (by decide)
  refine .orElse ?_ (hpoint.bind fun _ => alike_digits.bind fun _ => .pure _)
  exact alike_digits.bind fun _ => (hpoint.bind fun _ => alike_digits.optional).optional.bind
    fun _ => .pure _

theorem alike_operatorOf (level : Level) :
    Lockstep u n n' k (operatorOf level) (operatorOf level) := by
  have hkeyword : ∀ {text : String} (value : BinaryOp), (∀ c ∈ text.toList, isInner c = true) →
      Lockstep u n n' k (do keyword text; return value)
        (do keyword text; return value) :=
    fun value htext => (alike_keyword htext).bind fun _ => .pure value
  cases level with
  | or => exact hkeyword _ (by decide)
  | and => exact hkeyword _ (by decide)
  | equality => exact .orElse (alike_spelling (by decide)) (alike_spelling (by decide))
  | relational =>
    refine .firstOf_self ?_
    simp only [List.forall_mem_cons]
    refine ⟨?_, ?_, ?_, ?_, ?_, ?_, ?_, ?_, by simp⟩
    all_goals exact alike_spelling (by decide)
  | additive => exact .orElse (alike_spelling (by decide)) (alike_spelling (by decide))
  | multiplicative =>
    refine .firstOf_self ?_
    simp only [List.forall_mem_cons]
    exact ⟨alike_spelling (by decide), hkeyword _ (by decide), hkeyword _ (by decide), by simp⟩
  | union => exact alike_spelling (by decide)
  | unary => exact .fail
  | path => exact .fail

end

/-! ## Steps and paths -/

section
variable {expr expr' : Parser Expr}

theorem alike_separator : Lockstep u n n' k separator separator :=
  Alike.spaced (.orElse (alike_spelling (by decide)) (alike_spelling (by decide)))

theorem alike_nodeTest : Lockstep u (n + 1) (n' + 1) k nodeTest nodeTest := by
  have hstar : ∀ {β : Type} (value : β), Lockstep u (n + 1) (n' + 1) k
      (do let _ ← char '*'; return value) (do let _ ← char '*'; return value) :=
    fun value => (alike_char (by decide)).bind fun _ => .pure value
  have htype : Lockstep u (n + 1) (n' + 1) k nodeType nodeType := by
    refine .firstOf_self ?_
    simp only [List.forall_mem_cons]
    refine ⟨?_, ?_, ?_, ?_, by simp⟩
    all_goals exact alike_spelling (by decide)
  have htypeTest : Lockstep u (n + 1) (n' + 1) k typeTest typeTest := by
    refine htype.bind fun type => (alike_opening (Or.inl rfl)).spaced.bind fun _ => ?_
    cases type with
    | some test =>
      exact (Alike.pure test).bind fun _ => (alike_closing (Or.inl rfl)).bind fun _ => .pure _
    | none =>
      exact alike_literal.spaced.optional.map.bind fun _ =>
        (alike_closing (Or.inl rfl)).bind fun _ => .pure _
  have hname : Lockstep u (n + 1) (n' + 1) k nameTest nameTest := by
    refine alike_simpleName.bind fun first => ?_
    have hlocal : Lockstep u (n + 1) (n' + 1) k localTest localTest :=
      .orElse (hstar none) alike_simpleName.map
    refine ((alike_char (by decide)).bind fun _ => hlocal).optional.bind fun second => ?_
    rcases second with _ | _ | second <;> exact .pure _
  refine .firstOf_self ?_
  simp only [List.forall_mem_cons]
  exact ⟨hstar _, htypeTest, hname, by simp⟩

theorem alike_axisTest : Lockstep u (n + 1) (n' + 1) k axisTest axisTest := by
  have hnames : ∀ axis : Axis, ∀ c ∈ axis.name.toList, isInner c = true :=
    fun axis c hc => isInner_of_isNameChar ((isSimpleName_axis axis).isNameChar c hc)
  have haxis : Lockstep u (n + 1) (n' + 1) k axisName axisName := by
    refine Alike.bind (.firstOf_self fun p hp => ?_) fun _ =>
      (alike_word (by decide)).spaced.bind fun _ => .pure _
    obtain ⟨axis, -, rfl⟩ := List.mem_map.mp hp
    exact alike_spelling (hnames axis)
  refine .orElse ?_ ?_
  · exact (alike_char (by decide)).spaced.bind fun _ => alike_nodeTest.bind fun _ => .pure _
  · exact haxis.optional.bind fun _ => alike_nodeTest.bind fun _ => .pure _

variable (hexpr : ∀ k, Lockstep u n n' k expr expr')
include hexpr

theorem alike_predicate : Lockstep u (n + 1) (n' + 1) k (predicate expr) (predicate expr') :=
  (alike_opening (Or.inr rfl)).spaced.bind fun _ => (hexpr _).bind fun _ =>
    (alike_closing (Or.inr rfl)).spaced.bind fun _ => .pure _

variable (hcounts : Counts expr) (hcounts' : Counts expr')
include hcounts hcounts'

theorem alike_predicates : Lockstep u (n + 1) (n' + 1) k
    (many (predicate expr)) (many (predicate expr')) :=
  (alike_predicate hexpr).many (counts_predicate hcounts) takes_predicate
    (counts_predicate hcounts') takes_predicate

theorem alike_step : Lockstep u (n + 1) (n' + 1) k (step expr) (step expr') := by
  refine .firstOf (.cons (alike_spelling (by decide)) (.cons (alike_spelling (by decide))
    (.cons ?_ .nil)))
  exact alike_axisTest.bind fun _ => (alike_predicates hexpr hcounts hcounts').bind fun _ => .pure _

theorem alike_moreSteps : Lockstep u (n + 1) (n' + 1) k (moreSteps expr) (moreSteps expr') := by
  have hnext : Lockstep u (n + 1) (n' + 1) k (nextSteps expr) (nextSteps expr') :=
    alike_separator.bind fun _ => (alike_step hexpr hcounts hcounts').bind fun _ => .pure _
  exact (hnext.many (counts_nextSteps hcounts) takes_nextSteps (counts_nextSteps hcounts')
    takes_nextSteps).map

theorem alike_locationPath : Lockstep u (n + 1) (n' + 1) k
    (locationPath expr) (locationPath expr') := by
  have hstep : Lockstep u (n + 1) (n' + 1) k (step expr) (step expr') :=
    alike_step hexpr hcounts hcounts'
  have hstart : Lockstep u (n + 1) (n' + 1) k (pathStart expr) (pathStart expr') := by
    refine (alike_word (by decide)).optional.bind fun double => ?_
    cases double with
    | some _ => exact alike_blanks.bind fun _ => hstep.bind fun _ => .pure _
    | none =>
      refine (alike_word (by decide)).optional.bind fun single => ?_
      cases single with
      | some _ => exact (alike_blanks.bind fun _ => hstep).optional.bind fun _ => .pure _
      | none => exact hstep.bind fun _ => .pure _
  exact hstart.bind fun _ => (alike_moreSteps hexpr hcounts hcounts').bind fun _ => .pure _

/-! ## Expressions -/

theorem alike_call : Lockstep u (n + 1) (n' + 1) k (call expr) (call expr') := by
  have hargs : Lockstep u n n' (k + 1)
      (separated (spaced (char ',')) expr) (separated (spaced (char ',')) expr') := by
    have hcomma : Lockstep u n n' (k + 1) (spaced (char ','))
        (spaced (char ',')) := (alike_char (by decide)).spaced
    refine (hexpr _).optional.bind fun first => ?_
    cases first with
    | none => exact .pure _
    | some first =>
      refine Alike.bind (.many (hcomma.bind fun _ => hexpr _) ?_ ?_ ?_ ?_) fun _ => .pure _
      · exact (Counts.char ',').spaced.bind fun _ => hcounts
      · exact (Takes.char ',').spaced.bind
      · exact (Counts.char ',').spaced.bind fun _ => hcounts'
      · exact (Takes.char ',').spaced.bind
  refine alike_qualifiedName.bind fun name =>
    (alike_opening (Or.inl rfl)).spaced.peek.bind fun _ => ?_
  split
  · exact Alike.fail.bind fun _ => alike_blanks.bind fun _ => (alike_opening (Or.inl rfl)).bind
      fun _ => hargs.bind fun _ => (alike_closing (Or.inl rfl)).spaced.bind fun _ => .pure _
  · exact alike_blanks.bind fun _ => (alike_opening (Or.inl rfl)).bind
      fun _ => hargs.bind fun _ => (alike_closing (Or.inl rfl)).spaced.bind fun _ => .pure _

theorem alike_primary : Lockstep u (n + 1) (n' + 1) k (primary expr) (primary expr') := by
  have hreference : Lockstep u (n + 1) (n' + 1) k reference reference :=
    (alike_char (by decide)).bind fun _ => alike_qualifiedName.bind fun _ => .pure _
  have hparenthesized : Lockstep u (n + 1) (n' + 1) k (parenthesized expr) (parenthesized expr') :=
    (alike_opening (Or.inl rfl)).bind fun _ => (hexpr _).bind fun _ =>
      (alike_closing (Or.inl rfl)).spaced.bind fun _ => .pure _
  exact .spaced (.firstOf (.cons hreference (.cons alike_numeral.map (.cons alike_literal.map
    (.cons (alike_call hexpr hcounts hcounts') (.cons hparenthesized .nil))))))

theorem alike_pathExpr : Lockstep u (n + 1) (n' + 1) k (pathExpr expr) (pathExpr expr') := by
  refine .spaced (.orElse ?_ (alike_locationPath hexpr hcounts hcounts'))
  exact (alike_primary hexpr hcounts hcounts').bind fun _ =>
    (alike_predicates hexpr hcounts hcounts').bind fun _ =>
      (alike_moreSteps hexpr hcounts hcounts').bind fun _ => .pure _

omit hexpr hcounts hcounts' in
theorem Alike.leftGrouped {operand operand' : Parser Expr}
    (h : Lockstep u n n' k operand operand') (hcounts : Counts operand)
    (hcounts' : Counts operand') (level : Level) :
    Lockstep u n n' k (leftGrouped operand (operatorOf level))
      (leftGrouped operand' (operatorOf level)) := by
  have htakes : ∀ operand, Takes (nextOperand operand (operatorOf level)) :=
    fun _ => (takes_operatorOf level).spaced.bind
  have hnext : Lockstep u n n' k (nextOperand operand (operatorOf level))
      (nextOperand operand' (operatorOf level)) :=
    (alike_operatorOf level).spaced.bind fun _ => h.bind fun _ => .pure _
  exact h.bind fun _ => (hnext.many (hcounts.nextOperand level) (htakes _)
    (hcounts'.nextOperand level) (htakes _)).bind fun _ => .pure _

theorem alike_orExpr : Lockstep u (n + 1) (n' + 1) k (orExpr expr) (orExpr expr') := by
  have hlevel : ∀ level : Level, Counts (levelOf expr level) ∧ Counts (levelOf expr' level) :=
    fun level => ⟨counts_levelOf hcounts level, counts_levelOf hcounts' level⟩
  have hunion := (alike_pathExpr (k := k) hexpr hcounts hcounts').leftGrouped (hlevel .path).1
    (hlevel .path).2 .union
  have hsigns : Lockstep u (n + 1) (n' + 1) k
      (many (spaced (char '-'))) (many (spaced (char '-'))) :=
    (alike_char (by decide)).spaced.many (Counts.char '-').spaced (Takes.char '-').spaced
      (Counts.char '-').spaced (Takes.char '-').spaced
  have hunary : Lockstep u (n + 1) (n' + 1) k (unaryExpr expr) (unaryExpr expr') :=
    hsigns.bind fun _ => hunion.bind fun _ => .pure _
  have hmultiplicative := hunary.leftGrouped (hlevel .unary).1 (hlevel .unary).2 .multiplicative
  have hadditive := hmultiplicative.leftGrouped (hlevel .multiplicative).1
    (hlevel .multiplicative).2 .additive
  have hrelational := hadditive.leftGrouped (hlevel .additive).1 (hlevel .additive).2 .relational
  have hequality := hrelational.leftGrouped (hlevel .relational).1 (hlevel .relational).2 .equality
  have hand := hequality.leftGrouped (hlevel .equality).1 (hlevel .equality).2 .and
  exact hand.leftGrouped (hlevel .and).1 (hlevel .and).2 .or

omit hexpr hcounts hcounts' in
theorem alike_exprWithin : Lockstep u n n' k (exprWithin n) (exprWithin n') := by
  induction n generalizing n' k with
  | zero => exact fun s s' h => absurd h.short (Nat.not_lt_zero _)
  | succ n ih =>
    cases n' with
    | zero => exact fun s s' h => absurd h.short' (Nat.not_lt_zero _)
    | succ n' =>
      exact alike_orExpr (fun k => ih) (counts_exprWithin n) (counts_exprWithin n')

end

/-! ## Reading on -/

variable {e : Expr} {rest : List Char}

theorem exists_exprWithin_append (h : (exprWithin n s).result = some (e, rest)) (hn : s.length < n)
    (hn' : (s ++ t).length < n') (ht : Harmless u 0 s t) :
    ∃ rest', (exprWithin n' (s ++ t)).result = some (e, rest') ∧ Near u n n' 0 rest rest' := by
  rcases alike_exprWithin s (s ++ t) ⟨hn, hn', t, rfl, ht⟩ with
    ⟨hnone, -⟩ | ⟨v, final, final', hread, hread', hfinal⟩
  · rw [h] at hnone
    cases hnone
  · rw [h] at hread
    obtain ⟨rfl, rfl⟩ := Prod.mk.inj (Option.some.inj hread)
    exact ⟨final', hread', hfinal⟩

/-- White space behind the text does not matter, nor does the depth that is allowed. -/
theorem exists_exprWithin_append_space (h : (exprWithin n s).result = some (e, rest))
    (hn : s.length < n) (hn' : (s ++ t).length < n') (ht : ∀ c ∈ t, Text.isSpace c = true) :
    ∃ t', (exprWithin n' (s ++ t)).result = some (e, rest ++ t') ∧
      ∀ c ∈ t', Text.isSpace c = true := by
  obtain ⟨rest', hread, hrest⟩ := exists_exprWithin_append (u := []) h hn hn' (Or.inl ⟨rfl, ht⟩)
  obtain ⟨t', rfl, ⟨-, ht'⟩ | ⟨-, -, hclosing⟩⟩ := hrest.continues
  · exact ⟨t', hread, ht'⟩
  · cases hclosing

/-- A text that is an expression up to blanks is the same expression in brackets. -/
theorem exists_exprWithin_append_closing (h : (exprWithin n s).result = some (e, rest))
    (hrest : ∀ c ∈ rest, Text.isBlank c = true) (hn : s.length < n) (hn' : (s ++ t).length < n')
    (ht : startsIn (fun c => c == ')' || c == ']') t = true) :
    (exprWithin n' (s ++ t)).result = some (e, rest ++ t) := by
  have hcloses : Closes 0 s :=
    closes_of_exprWithin h fun c hc => Text.isSpace_of_isBlank (hrest c hc)
  obtain ⟨rest', hread, hnear⟩ := exists_exprWithin_append h hn hn' (Or.inr ⟨rfl, hcloses, ht⟩)
  obtain ⟨t', rfl, ⟨rfl, -⟩ | ⟨rfl, -⟩⟩ := hnear.continues
  · cases ht
  · exact hread

end XPath.Parser
