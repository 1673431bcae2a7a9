import XPath.Number.Scan
import XPath.Proofs.Number.Numeral
import XPath.Proofs.Text.Words
/-! The scan of a number and the grammar of numerals accept the same texts. Behind the point a scan
lets only digits through; in front of it, digits up to the end or up to a point. Any other text reads
as not-a-number, and only such a text does. -/
namespace XPath.Number
set_option autoImplicit false

variable {seen : Seen} {d negative : Bool} {c : Char} {s w whole fraction : List Char}

/-! ## The scan -/

theorem accepts_nil : seen.accepts [] = seen.digit := rfl

theorem accepts_cons : seen.accepts (c :: s) = (seen.next? c).any (·.accepts s) := by
  unfold Seen.accepts
  rw [List.foldlM_cons]
  cases seen.next? c <;> rfl

theorem next?_of_isDigit (h : c.isDigit = true) :
    seen.next? c = some { seen with digit := true } := if_pos h

theorem next?_point : seen.next? '.' = if seen.point then none else some ⟨true, seen.digit⟩ := by
  cases h : seen.point <;> simp [Seen.next?, h]

theorem next?_eq_none (hdigit : c.isDigit = false) (hpoint : c ≠ '.') : seen.next? c = none := by
  simp [Seen.next?, hdigit, hpoint]

/-- Behind the point only digits may come. -/
theorem accepts_behind_point : Seen.accepts ⟨true, d⟩ s = true ↔
    (∀ c ∈ s, c.isDigit = true) ∧ (d = true ∨ s ≠ []) := by
  induction s generalizing d with
  | nil => simp [accepts_nil]
  | cons c s ih =>
    rw [accepts_cons, List.forall_mem_cons]
    cases hc : c.isDigit with
    | true =>
      rw [next?_of_isDigit hc, Option.any_some, ih]
      simp
    | false =>
      have hnone : Seen.next? ⟨true, d⟩ c = none := by simp [Seen.next?, hc]
      simp [hnone]

/-- The digits in front of the point of a text and those behind it, if it has a point. -/
def SplitsAtPoint (s whole fraction : List Char) : Prop :=
  s = whole ∧ fraction = [] ∨ s = whole ++ '.' :: fraction

theorem SplitsAtPoint.cons (h : SplitsAtPoint s whole fraction) (c : Char) :
    SplitsAtPoint (c :: s) (c :: whole) fraction := by
  cases h with
  | inl h => exact .inl ⟨congrArg (c :: ·) h.1, h.2⟩
  | inr h => exact .inr (congrArg (c :: ·) h)

/-- A digit belongs to the digits in front of the point. -/
theorem SplitsAtPoint.of_isDigit (h : SplitsAtPoint (c :: s) w fraction) (hc : c.isDigit = true) :
    ∃ whole, w = c :: whole ∧ SplitsAtPoint s whole fraction := by
  cases h with
  | inl h => exact ⟨s, h.1.symm, .inl ⟨rfl, h.2⟩⟩
  | inr h =>
    cases w with
    | nil =>
      obtain rfl := (List.cons.inj h).1
      cases hc
    | cons a whole =>
      obtain ⟨rfl, hs⟩ := List.cons.inj h
      exact ⟨whole, rfl, .inr hs⟩

/-- Another character can only be the point itself, with nothing in front of it. -/
theorem SplitsAtPoint.of_not_isDigit (h : SplitsAtPoint (c :: s) whole fraction)
    (hwhole : ∀ a ∈ whole, a.isDigit = true) (hc : c.isDigit = false) :
    c = '.' ∧ whole = [] ∧ fraction = s := by
  have hnot : ∀ {w : List Char}, whole ≠ c :: w := by
    rintro w rfl
    rw [hwhole c List.mem_cons_self] at hc
    cases hc
  cases h with
  | inl h => exact absurd h.1.symm hnot
  | inr h =>
    cases whole with
    | nil =>
      obtain ⟨hpoint, hs⟩ := List.cons.inj h
      exact ⟨hpoint, rfl, hs.symm⟩
    | cons a whole =>
      obtain ⟨rfl, -⟩ := List.cons.inj h
      exact absurd rfl hnot

theorem accepts_before_point : Seen.accepts ⟨false, d⟩ s = true ↔
    ∃ whole fraction, SplitsAtPoint s whole fraction ∧
      (∀ c ∈ whole ++ fraction, c.isDigit = true) ∧ (d = true ∨ whole ++ fraction ≠ []) := by
  induction s generalizing d with
  | nil =>
    rw [accepts_nil]
    constructor
    · intro h
      exact ⟨[], [], .inl ⟨rfl, rfl⟩, by simp, .inl h⟩
    · rintro ⟨whole, fraction, hsplit, -, h⟩
      have hnil : whole ++ fraction = [] := by simpa [SplitsAtPoint] using hsplit
      exact h.resolve_right (absurd hnil)
  | cons c s ih =>
    rw [accepts_cons]
    cases hc : c.isDigit with
    | true =>
      rw [next?_of_isDigit hc, Option.any_some, ih]
      constructor
      · rintro ⟨whole, fraction, hsplit, hdigits, -⟩
        exact ⟨c :: whole, fraction, hsplit.cons c, List.forall_mem_cons.mpr ⟨hc, hdigits⟩,
          .inr (List.cons_ne_nil _ _)⟩
      · rintro ⟨_, fraction, hsplit, hdigits, -⟩
        obtain ⟨whole, rfl, hrest⟩ := hsplit.of_isDigit hc
        exact ⟨whole, fraction, hrest, (List.forall_mem_cons.mp hdigits).2, .inl rfl⟩
    | false =>
      have hsplits : ∀ {whole fraction}, SplitsAtPoint (c :: s) whole fraction →
          (∀ a ∈ whole ++ fraction, a.isDigit = true) → c = '.' ∧ whole = [] ∧ fraction = s :=
        fun hsplit hdigits =>
          hsplit.of_not_isDigit (fun a ha => hdigits a (List.mem_append_left _ ha)) hc
      by_cases hpoint : c = '.'
      · subst hpoint
        rw [next?_point, if_neg Bool.false_ne_true, Option.any_some, accepts_behind_point]
        constructor
        · intro h
          exact ⟨[], s, .inr rfl, h⟩
        · rintro ⟨whole, fraction, hsplit, hdigits, h⟩
          obtain ⟨-, rfl, rfl⟩ := hsplits hsplit hdigits
          exact ⟨hdigits, h⟩
      · rw [next?_eq_none hc hpoint, Option.any_none]
        refine iff_of_false Bool.false_ne_true ?_
        rintro ⟨whole, fraction, hsplit, hdigits, -⟩
        exact hpoint (hsplits hsplit hdigits).1

/-- A scan from the start gets to the end of the numerals, and of no other text. -/
theorem accepts_eq_isSome (s : List Char) :
    Seen.accepts ⟨false, false⟩ s = (numeral? s).isSome := by
  rw [Bool.eq_iff_iff, accepts_before_point, Option.isSome_iff_exists]
  simp only [Prod.exists, numeral?_eq_some_iff, Bool.false_eq_true, false_or]
  refine exists_congr fun whole => exists_congr fun fraction => ?_
  unfold SplitsAtPoint
  tauto

/-! ## The grammar -/

theorem isNumeral_iff : IsNumeral w ↔ ∃ whole fraction, numeral? w = some (whole, fraction) := by
  simp only [numeral?_eq_some_iff]
  constructor
  · intro h
    cases h with
    | whole hne hdigits => exact ⟨w, [], by simpa using hdigits, by simpa using hne, .inl ⟨rfl, rfl⟩⟩
    | @decimal digits fraction hne hdigits hfraction =>
      refine ⟨digits, fraction, fun c hc => ?_, by simp [hne], .inr rfl⟩
      exact (List.mem_append.mp hc).elim (hdigits c) (hfraction c)
    | @fraction digits hne hdigits => exact ⟨[], digits, hdigits, hne, .inr rfl⟩
  · rintro ⟨whole, fraction, hdigits, hne, h⟩
    have hwhole : ∀ c ∈ whole, c.isDigit = true := fun c hc =>
      hdigits c (List.mem_append_left _ hc)
    have hfraction : ∀ c ∈ fraction, c.isDigit = true := fun c hc =>
      hdigits c (List.mem_append_right _ hc)
    rcases h with ⟨rfl, rfl⟩ | rfl
    · exact .whole (by simpa using hne) hwhole
    · by_cases hnil : whole = []
      · subst hnil
        exact .fraction hne hfraction
      · exact .decimal hnil hwhole hfraction

theorem isDigit_or_point (h : numeral? w = some (whole, fraction)) :
    ∀ c ∈ w, c.isDigit = true ∨ c = '.' := by
  obtain ⟨hdigits, -, hw⟩ := numeral?_eq_some_iff.mp h
  intro c hc
  have hsplit : c ∈ whole ++ fraction ∨ c = '.' := by
    rcases hw with ⟨rfl, rfl⟩ | rfl
    · exact .inl (by simpa using hc)
    · simp only [List.mem_append, List.mem_cons] at hc ⊢
      tauto
  exact hsplit.imp_left (hdigits c)

/-- Numerals are without blanks and signs. -/
theorem plain_of_numeral (h : numeral? w = some (whole, fraction)) :
    ∀ c ∈ w, Text.isBlank c = false ∧ c ≠ '-' := by
  intro c hc
  rcases isDigit_or_point h c hc with hdigit | rfl
  · constructor
    · refine Bool.eq_false_iff.mpr fun hblank => ?_
      simp only [Text.isBlank, Bool.or_eq_true, beq_iff_eq] at hblank
      rcases hblank with ((rfl | rfl) | rfl) | rfl <;> cases hdigit
    · rintro rfl
      cases hdigit
  · decide

theorem unsigned_eq_self (h : ∀ c ∈ w, c ≠ '-') : unsigned w = w := by
  unfold unsigned
  split
  · exact absurd rfl (h '-' List.mem_cons_self)
  · rfl

/-- A text is that of a number if and only if a numeral is left of it without the blanks around it and
without the sign. -/
theorem isNumberText_iff : IsNumberText s ↔
    ∃ whole fraction, numeral? (unsigned (Text.trim Text.isBlank s)) = some (whole, fraction) := by
  constructor
  · intro h
    cases h with
    | @unsigned before w after hbefore hw hafter =>
      obtain ⟨whole, fraction, hw⟩ := isNumeral_iff.mp hw
      have hplain := plain_of_numeral hw
      rw [Text.trim_append hbefore (fun c hc => (hplain c hc).1) hafter,
        unsigned_eq_self fun c hc => (hplain c hc).2]
      exact ⟨whole, fraction, hw⟩
    | @signed before w after hbefore hw hafter =>
      obtain ⟨whole, fraction, hw⟩ := isNumeral_iff.mp hw
      have hplain := plain_of_numeral hw
      have hsigned : ∀ c ∈ '-' :: w, Text.isBlank c = false :=
        List.forall_mem_cons.mpr ⟨by decide, fun c hc => (hplain c hc).1⟩
      rw [Text.trim_append hbefore hsigned hafter]
      exact ⟨whole, fraction, hw⟩
  · rintro ⟨whole, fraction, h⟩
    have hw : IsNumeral (unsigned (Text.trim Text.isBlank s)) := isNumeral_iff.mpr ⟨_, _, h⟩
    obtain ⟨before, after, hs, hbefore, hafter⟩ := Text.exists_trim Text.isBlank s
    rw [hs]
    generalize Text.trim Text.isBlank s = t at hw
    unfold unsigned at hw
    split at hw
    · exact .signed hbefore hw hafter
    · exact .unsigned hbefore hw hafter

/-! ## Reading -/

theorem ofDecimal_ne_nan : ofDecimal negative whole fraction ≠ nan := by
  unfold ofDecimal ofFraction ofUnits ofIndex
  split <;> nofun

theorem read_eq : read s =
    match numeral? (unsigned (Text.trim Text.isBlank s)) with
    | some (whole, fraction) =>
      ofDecimal ((Text.trim Text.isBlank s).head? == some '-') whole fraction
    | none => nan := by
  unfold read
  generalize Text.trim Text.isBlank s = t
  cases t with
  | nil => rfl
  | cons c t =>
    by_cases hc : c = '-'
    · subst hc
      rfl
    · have hsign : (c == '-') = false := beq_eq_false_iff_ne.mpr hc
      cases hnumeral : numeral? (c :: t) <;> simp [unsigned, hc, hsign, hnumeral]

theorem read_eq_nan_iff :
    read s = nan ↔ numeral? (unsigned (Text.trim Text.isBlank s)) = none := by
  rw [read_eq]
  split
  · next h => simp [h, ofDecimal_ne_nan]
  · next h => simp [h]

theorem read_of_numeral (h : numeral? w = some (whole, fraction)) :
    read w = ofDecimal false whole fraction := by
  have hplain := plain_of_numeral h
  have hsign : (w.head? == some '-') = false := by
    refine beq_eq_false_iff_ne.mpr fun hhead => ?_
    exact (hplain '-' (List.mem_of_mem_head? hhead)).2 rfl
  rw [read_eq, Text.trim_eq_self fun c hc => (hplain c hc).1,
    unsigned_eq_self fun c hc => (hplain c hc).2, h, hsign]

end XPath.Number
