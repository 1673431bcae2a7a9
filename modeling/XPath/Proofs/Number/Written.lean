import XPath.Proofs.Number.Round
import XPath.Proofs.Number.Scan
/-! Numbers written and read back. The search for the shortest decimal comes to an end, as the last
grid that it tries is finer than one unit. What it finds lies in the interval of the magnitude, so that
reading rounds it to just this magnitude; and the text of it is a numeral, behind a minus sign if the
number is negative. -/
namespace XPath.Number
set_option autoImplicit false

variable {x y : Number} {p q : ℚ} {negative : Bool} {i m k fuel : Nat} {e : Int} {g : Grid}
  {w whole fraction : List Char}

/-! ## The search -/

theorem Grid.den_pos (e : Int) : 0 < (Grid.ofExponent e).den := by
  cases e with
  | ofNat e => exact Nat.one_pos
  | negSucc e => exact Nat.pow_pos (by decide)

theorem roundsTo_of_onGrid? (h : onGrid? i g = some m) :
    roundsTo i (m * g.num) g.den = true := by
  unfold onGrid? at h
  dsimp only at h
  split at h
  · next hbelow =>
    obtain rfl := Option.some.inj h
    exact ((Bool.and_eq_true _ _).mp hbelow).1
  · split at h
    · next habove =>
      obtain rfl := Option.some.inj h
      exact habove
    · cases h

/-- On a grid that is at most half a unit wide, the multiple below a magnitude lies in its interval. -/
theorem onGrid?_isSome (hi : 0 < i) (hnum : 0 < g.num) (hg : 2 * g.num ≤ g.den) :
    (onGrid? i g).isSome = true := by
  have hbelow : roundsTo i (units i * g.den / g.num * g.num) g.den = true := by
    -- It is less than half a unit away, and the neighbours of the magnitude are at least one.
    have hle := Nat.div_mul_le_self (units i * g.den) g.num
    have hlt := Nat.lt_div_mul_add hnum (a := units i * g.den)
    have hpred := Nat.mul_le_mul_right g.den (units_strictMono (Nat.sub_lt hi Nat.one_pos))
    have hsucc := Nat.mul_le_mul_right g.den (units_strictMono (Nat.lt_add_one i))
    rw [Nat.succ_mul] at hpred hsucc
    rw [roundsTo_eq_true_iff, Nat.add_mul, Nat.add_mul]
    omega
  unfold onGrid?
  dsimp only
  simp only [hbelow, Bool.true_and]
  split
  · rfl
  · next habove =>
    simp only [Bool.or_eq_true, Bool.not_eq_true', not_or, Bool.not_eq_false] at habove
    rw [if_pos habove.2]
    rfl

/-- The search ends at the first grid with a multiple in the interval, if it gets to one. -/
theorem onGrid?_shortestFrom (hk : k < fuel)
    (h : (onGrid? i (.ofExponent (e - k))).isSome = true) :
    onGrid? i (.ofExponent (shortestFrom i fuel e).2) = some (shortestFrom i fuel e).1 := by
  -- The grid that is known to have a multiple comes `k` grids further on.
  induction fuel generalizing e k with
  | zero => exact absurd hk (Nat.not_lt_zero k)
  | succ fuel ih =>
    unfold shortestFrom
    split
    · next m hfound => exact hfound
    · next hnone =>
      cases k with
      | zero =>
        rw [Nat.cast_zero, Int.sub_zero, hnone] at h
        cases h
      | succ k =>
        refine ih (k := k) (Nat.lt_of_succ_lt_succ hk) ?_
        rwa [show e - 1 - (k : Int) = e - (k + 1 : Nat) by omega]

/-- The shortest decimal lies in the interval of its magnitude. -/
theorem roundsTo_shortest (hi : 0 < i) :
    roundsTo i ((shortest i).1 * (Grid.ofExponent (shortest i).2).num)
      (Grid.ofExponent (shortest i).2).den = true := by
  have hnum : 0 < (Grid.ofExponent (-324)).num := by decide +kernel
  have hfine : 2 * (Grid.ofExponent (-324)).num ≤ (Grid.ofExponent (-324)).den := by decide +kernel
  have hlast := onGrid?_isSome hi hnum hfine
  refine roundsTo_of_onGrid? ?_
  unfold shortest
  dsimp only
  generalize (Nat.toDigits 10 (units (i + 1) / one)).length = places
  refine onGrid?_shortestFrom (k := places + 324) (by omega) ?_
  rwa [show (places : Int) - (places + 324 : Nat) = -324 by omega]

/-! ## The text of a decimal -/

theorem ofDigits_eq (digits : List Char) : ofDigits digits = Nat.ofDigitChars 10 digits 0 := rfl

/-- Zeros behind the digits count as tens, zeros in front of them for nothing. -/
theorem ofDigits_padded (m before after : Nat) :
    ofDigits (List.replicate before '0' ++ Nat.toDigits 10 m ++ List.replicate after '0') =
      m * 10 ^ after := by
  rw [ofDigits_eq, Nat.ofDigitChars_append, Nat.ofDigitChars_append, Nat.ofDigitChars_replicate_zero,
    Nat.ofDigitChars_replicate_zero, Nat.mul_zero, Nat.ofDigitChars_ten_toDigits, Nat.mul_comm]

theorem isDigit_padded (m before after : Nat) :
    ∀ c ∈ List.replicate before '0' ++ Nat.toDigits 10 m ++ List.replicate after '0',
      c.isDigit = true := by
  intro c hc
  rw [List.mem_append, List.mem_append] at hc
  rcases hc with (hc | hc) | hc
  · rw [List.eq_of_mem_replicate hc]
    rfl
  · exact Nat.isDigit_of_mem_toDigits (by decide) (by decide) hc
  · rw [List.eq_of_mem_replicate hc]
    rfl

/-- Below one, enough zeros stand in front of the digits for a digit before the point. -/
theorem exists_positional_negSucc (m e : Nat) : ∃ whole fraction before,
    positional m (.negSucc e) = whole ++ '.' :: fraction ∧ fraction.length = e + 1 ∧
      whole ++ fraction = List.replicate before '0' ++ Nat.toDigits 10 m := by
  refine ⟨_, _, _, rfl, ?_, List.take_append_drop _ _⟩
  rw [List.length_drop, List.length_append, List.length_replicate]
  omega

/-- A decimal is written as a numeral, and this is read as the number nearest to it. -/
theorem numeral?_positional (m : Nat) (e : Int) : ∃ whole fraction,
    numeral? (positional m e) = some (whole, fraction) ∧ ∀ negative,
      ofDecimal negative whole fraction =
        ofUnits negative (m * (Grid.ofExponent e).num) (Grid.ofExponent e).den := by
  cases e with
  | ofNat e =>
    have hdigits := isDigit_padded m 0 e
    have hvalue := ofDigits_padded m 0 e
    rw [List.replicate_zero, List.nil_append] at hdigits hvalue
    refine ⟨Nat.toDigits 10 m ++ List.replicate e '0', [],
      numeral?_eq_some_iff.mpr ⟨?_, ?_, .inl ⟨rfl, rfl⟩⟩, fun negative => ?_⟩
    · rwa [List.append_nil]
    · simp [Nat.toDigits_ne_nil]
    · rw [ofDecimal, List.append_nil, hvalue, ofFraction, Nat.mul_assoc]
      rfl
  | negSucc e =>
    obtain ⟨whole, fraction, before, htext, hlength, hsplit⟩ := exists_positional_negSucc m e
    have hdigits := isDigit_padded m before 0
    have hvalue := ofDigits_padded m before 0
    rw [List.replicate_zero, List.append_nil, ← hsplit] at hdigits hvalue
    refine ⟨whole, fraction, numeral?_eq_some_iff.mpr ⟨hdigits, ?_, .inr htext⟩,
      fun negative => ?_⟩
    · simp [hsplit, Nat.toDigits_ne_nil]
    · rw [ofDecimal, hvalue, hlength, Nat.pow_zero, Nat.mul_one, ofFraction, Grid.ofExponent]

/-! ## Reading the text -/

/-- A minus sign in front of a numeral makes the number negative. -/
theorem read_of_signed_numeral (h : numeral? w = some (whole, fraction)) :
    read ('-' :: w) = ofDecimal true whole fraction := by
  have hplain : ∀ c ∈ '-' :: w, Text.isBlank c = false :=
    List.forall_mem_cons.mpr ⟨by decide, fun c hc => (plain_of_numeral h c hc).1⟩
  rw [read_eq, Text.trim_eq_self hplain, unsigned, h]
  rfl

theorem write_of_toRat?_zero (h : x.toRat? = some 0) : x.write = ['0'] := by
  rcases eq_zero_of_toRat? h with rfl | rfl <;> rfl

/-- Every number but the zeros is written as a numeral that is read as its magnitude. -/
theorem exists_write {index : Fin limit} (h : index.val ≠ 0) : ∃ w whole fraction,
    write (finite negative index) = (if negative then ['-'] else []) ++ w ∧
      numeral? w = some (whole, fraction) ∧
      ofDecimal negative whole fraction = finite negative index := by
  obtain ⟨whole, fraction, hnumeral, hvalue⟩ :=
    numeral?_positional (shortest index).1 (shortest index).2
  refine ⟨_, whole, fraction, if_neg h, hnumeral, ?_⟩
  have hrounds := roundsTo_shortest (Nat.pos_of_ne_zero h)
  rw [hvalue, ofUnits, (nearestIndex_eq_iff (Grid.den_pos _)).mpr hrounds, ofIndex,
    dif_pos index.isLt]

theorem read_write {index : Fin limit} (h : index.val ≠ 0) :
    read (write (finite negative index)) = finite negative index := by
  obtain ⟨w, whole, fraction, htext, hnumeral, hvalue⟩ := exists_write h
  rw [htext, ← hvalue]
  cases negative with
  | false => exact read_of_numeral hnumeral
  | true => exact read_of_signed_numeral hnumeral

/-- A number with another value than zero has another index than the zeros. -/
theorem exists_finite_of_ne_zero (h : x.toRat? = some q) (hne : q ≠ 0) :
    ∃ (negative : Bool) (index : Fin limit), x = finite negative index ∧ index.val ≠ 0 ∧
      ((signed negative (units index) : ℤ) : ℚ) / one = q := by
  obtain ⟨negative, index, rfl, hvalue⟩ := exists_finite h
  refine ⟨negative, index, rfl, fun hzero => hne ?_, hvalue⟩
  exact Option.some.inj (h.symm.trans (toRat?_of_zero negative hzero))

theorem read_zero : read ['0'] = zero := by decide +kernel

/-- A finite number is read back as itself, and either zero as the positive one. -/
theorem parse_toText (h : x.toRat? = some q) : parse x.toText = if q = 0 then zero else x := by
  split
  · next hzero =>
    subst hzero
    rw [parse, toText, String.toList_ofList, write_of_toRat?_zero h, read_zero]
  · next hne =>
    obtain ⟨negative, index, rfl, hindex, -⟩ := exists_finite_of_ne_zero h hne
    rw [parse, toText, String.toList_ofList, read_write hindex]

theorem toRat?_parse_toText (h : x.toRat? = some q) : (parse x.toText).toRat? = some q := by
  rw [parse_toText h]
  split
  · next hzero => exact hzero ▸ toRat?_of_zero false rfl
  · exact h

theorem value_neg_iff (hi : i ≠ 0) :
    ((signed negative (units i) : ℤ) : ℚ) / one < 0 ↔ negative = true := by
  have hpos : (0 : ℚ) < one := by exact_mod_cast one_pos
  have hunits : 0 < units i := units_strictMono (Nat.pos_of_ne_zero hi)
  rw [div_lt_iff₀ hpos, zero_mul, Int.cast_lt_zero]
  cases negative with
  | false => simp [signed]
  | true => simpa [signed] using hunits

/-- The sign of a written number is that of its value. -/
theorem exists_numeral_toText (h : x.toRat? = some q) :
    ∃ w, IsNumeral w ∧ x.toText.toList = if q < 0 then '-' :: w else w := by
  rcases eq_or_ne q 0 with rfl | hne
  · refine ⟨['0'], .whole (List.cons_ne_nil _ _) (List.forall_mem_singleton.mpr rfl), ?_⟩
    rw [toText, String.toList_ofList, write_of_toRat?_zero h, if_neg (lt_irrefl 0)]
  · obtain ⟨negative, index, rfl, hindex, rfl⟩ := exists_finite_of_ne_zero h hne
    obtain ⟨w, whole, fraction, htext, hnumeral, -⟩ := @exists_write negative index hindex
    refine ⟨w, isNumeral_iff.mpr ⟨whole, fraction, hnumeral⟩, ?_⟩
    simp only [toText, String.toList_ofList, htext, value_neg_iff hindex]
    split <;> rfl

/-! ## Comparing texts -/

theorem signed_units_inj {s t : Bool} {a b : Nat} :
    signed s (units a) = signed t (units b) ↔ signed s a = signed t b := by
  have hinj : units a = units b ↔ a = b := units_strictMono.injective.eq_iff
  have ha : units a = 0 ↔ a = 0 := units_strictMono.injective.eq_iff (a := a) (b := 0)
  have hb : units b = 0 ↔ b = 0 := units_strictMono.injective.eq_iff (a := b) (b := 0)
  cases s <;> cases t <;> simp only [signed, Bool.false_eq_true, if_true, if_false] <;> omega

/-- Numbers are equal just if they have one value. -/
theorem equals_iff (hx : x.toRat? = some p) (hy : y.toRat? = some q) :
    x.equals y = true ↔ p = q := by
  obtain ⟨s, a, rfl, rfl⟩ := exists_finite hx
  obtain ⟨t, b, rfl, rfl⟩ := exists_finite hy
  have hpos : (one : ℚ) ≠ 0 := by exact_mod_cast one_pos.ne'
  rw [div_left_inj' hpos, Int.cast_inj, signed_units_inj]
  -- The place of a finite number is its index with the sign.
  exact beq_iff_eq

/-- Different texts are written for numbers of different values, and only for these. -/
theorem toText_eq_iff (hx : x.toRat? = some p) (hy : y.toRat? = some q) :
    x.toText = y.toText ↔ p = q := by
  constructor
  · intro htext
    have hread := toRat?_parse_toText hx
    rw [htext, toRat?_parse_toText hy] at hread
    exact (Option.some.inj hread).symm
  · rintro rfl
    rcases eq_or_ne p 0 with rfl | hne
    · rw [toText, toText, write_of_toRat?_zero hx, write_of_toRat?_zero hy]
    · rw [eq_of_toRat? hne hx hy]

/-- Every finite number is written as a numeral, behind a minus sign if it is negative, and the text of
it is read back as an equal number, that of either zero as the positive zero. The texts of the other
numbers are read as not-a-number. So two finite numbers have one text just if they are equal. -/
theorem written_numbers_survive (x y : Number) :
    (∀ q, x.toRat? = some q →
      (∃ w, IsNumeral w ∧ x.toText.toList = if q < 0 then '-' :: w else w) ∧
      (parse x.toText).toRat? = some q ∧ (parse x.toText).equals x = true ∧
      (q = 0 → parse x.toText = zero)) ∧
    parse nan.toText = nan ∧ (∀ negative, parse (infinite negative).toText = nan) ∧
    ∀ p q, x.toRat? = some p → y.toRat? = some q →
      (x.toText = y.toText ↔ x.equals y = true) ∧ (x.toText = y.toText ↔ p = q) := by
  refine ⟨fun q hx => ?_, by decide +kernel, by decide +kernel, fun p q hx hy => ?_⟩
  · have hread := toRat?_parse_toText hx
    refine ⟨exists_numeral_toText hx, hread, (equals_iff hread hx).mpr rfl, fun hzero => ?_⟩
    rw [parse_toText hx, if_pos hzero]
  · have htext := toText_eq_iff hx hy
    exact ⟨htext.trans (equals_iff hx hy).symm, htext⟩

/-- The greatest number below zero, the two greatest numbers, and the negative zero. -/
theorem written_numbers_survive_at_bounds :
    let least : Number := finite true ⟨1, by decide⟩
    let next : Number := finite false ⟨limit - 2, by decide⟩
    let greatest : Number := finite false ⟨limit - 1, by decide⟩
    (∃ w, IsNumeral w ∧ least.toText.toList = '-' :: w) ∧
      (parse least.toText).toRat? = some (-1 / 2 ^ 1074) ∧ next.toText ≠ greatest.toText ∧
      parse negativeZero.toText = zero := by
  intro least next greatest
  have hleast : least.toRat? = some (-1 / 2 ^ 1074) := by decide +kernel
  have hneg : (-1 / 2 ^ 1074 : ℚ) < 0 := by decide +kernel
  obtain ⟨⟨w, hw, htext⟩, hread, -, -⟩ := (written_numbers_survive least least).1 _ hleast
  obtain ⟨-, -, -, htexts⟩ := written_numbers_survive next greatest
  have hdiffer : next.equals greatest = false := by decide +kernel
  refine ⟨⟨w, hw, htext.trans (if_pos hneg)⟩, hread, fun h => ?_, ?_⟩
  · rw [(htexts _ _ rfl rfl).1, hdiffer] at h
    cases h
  · exact ((written_numbers_survive negativeZero zero).1 0 (toRat?_of_zero true rfl)).2.2.2 rfl

end XPath.Number
