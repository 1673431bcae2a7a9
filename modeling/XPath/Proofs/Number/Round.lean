import Mathlib.Algebra.Ring.Int.Parity
import Mathlib.Tactic.FieldSimp
import Mathlib.Tactic.Linarith
import XPath.Number.Numeral
import XPath.Proofs.Number.Half
/-! Rounding to whole numbers, which adds one half and takes the floor. The result is the whole number
nearest to a number, of two the greater, unless the sum is rounded up to a whole number that the exact
sum does not reach. -/
namespace XPath.Number
set_option autoImplicit false

variable {x y : Number} {q : ℚ} {negative : Bool} {e i n : Nat}

/-! ## Sums with one half -/

section Sums

variable (he : e = 1073)
include he

theorem add_half_of_nonneg (index : Fin limit) :
    add (finite false index) half = ofUnits false (units index + 2 ^ e) 1 := by
  obtain ⟨hi, hhalf⟩ := half_eq
  have hpos := Nat.two_pow_pos e
  rw [hhalf, add]
  simp only [units_half he, signed, Bool.false_eq_true, if_false]
  rw [if_neg (by omega), decide_eq_false (by omega)]
  rfl

theorem add_half_of_neg {index : Fin limit} (h : 2 ^ e < units index) :
    add (finite true index) half = ofUnits true (units index - 2 ^ e) 1 := by
  obtain ⟨hi, hhalf⟩ := half_eq
  have hpos := Nat.two_pow_pos e
  have habs : (-(units index : ℤ) + ((2 ^ e : ℕ) : ℤ)).natAbs = units index - 2 ^ e := by omega
  rw [hhalf, add]
  simp only [units_half he, signed, Bool.false_eq_true, if_false, if_true]
  rw [if_neg (by omega), decide_eq_true (by omega), habs]

end Sums

theorem toRat?_ofUnits (negative : Bool) (h : nearestIndex n 1 < limit) :
    (ofUnits negative n 1).toRat? =
      some (((signed negative (units (nearestIndex n 1)) : ℤ) : ℚ) / one) := by
  rw [ofUnits, ofIndex, dif_pos h, toRat?]

theorem nearest_add_half_lt (he : e = 1073) (hi : i < limit) :
    nearestIndex (units i + 2 ^ e) 1 < limit := by
  rcases Nat.lt_or_ge i (1076 * 2 ^ 52) with hlt | hwide
  · have hlow : units (1076 * 2 ^ 52) = 2 ^ 54 * 2 ^ e := units_power he 54
    have hhigh : units (1077 * 2 ^ 52) = 2 ^ 55 * 2 ^ e := units_power he 55
    have hunits := units_strictMono hlt
    have hle := nearestIndex_le (i := 1077 * 2 ^ 52) (n := units i + 2 ^ e) Nat.one_pos (by omega)
    exact hle.trans_lt (by decide)
  · rwa [nearest_add_half_of_wide he hwide]

/-! ## The round function -/

theorem round_of_place {p : ℤ} (h : x.place = some p) (hne : p ≠ 0) :
    x.round = if -(1022 * 2 ^ 52) ≤ p ∧ p < 0 then negativeZero else floor (add x half) := by
  obtain ⟨hi, hhalf⟩ := half_eq
  have hplace : (neg half).place = some (-(1022 * 2 ^ 52)) := by rw [hhalf]; rfl
  have hzero : zero.place = some 0 := rfl
  have hle : le (neg half) x = decide (-(1022 * 2 ^ 52) ≤ p) := by rw [le, hplace, h]
  have hlt : lt x zero = decide (p < 0) := by rw [lt, h, hzero]
  unfold round
  rw [h, hle, hlt]
  split
  · next heq => cases heq
  · next heq => exact absurd (Option.some.inj heq) hne
  · simp only [Bool.and_eq_true, decide_eq_true_eq]

theorem round_of_zero (negative : Bool) {index : Fin limit} (h : index.val = 0) :
    (finite negative index).round = finite negative index := by
  have hplace : (finite negative index).place = some 0 := by cases negative <;> simp [place, h]
  rw [round, hplace]
  rfl

theorem signed_zero (negative : Bool) : signed negative 0 = 0 := by cases negative <;> rfl

theorem toRat?_of_zero (negative : Bool) {index : Fin limit} (h : index.val = 0) :
    (finite negative index).toRat? = some 0 := by
  have hunits : units index = 0 := by
    rw [h]
    rfl
  rw [toRat?, hunits, signed_zero, Int.cast_zero, zero_div]

theorem add_half_eq (he : e = 1073) (a : ℤ) :
    (a : ℚ) / one + 1 / 2 = ((a + (2 ^ e : ℕ) : ℤ) : ℚ) / one := by
  have hpos : (0 : ℚ) < (2 ^ e : ℕ) := by exact_mod_cast Nat.two_pow_pos e
  rw [one_eq_two_mul he]
  generalize 2 ^ e = h at hpos ⊢
  push_cast
  field_simp

section Values

variable (he : e = 1073) (index : Fin limit)
include he

/-- Zeros stay what they are, and from minus one half up to zero the result is the negative zero. -/
theorem toRat?_round_of_small
    (h : index.val = 0 ∨ negative = true ∧ index.val ≤ 1022 * 2 ^ 52) :
    (finite negative index).round.toRat? = some 0 ∧
      ⌊((signed negative (units index) : ℤ) : ℚ) / one + 1 / 2⌋ = 0 := by
  have hone := one_eq_two_mul he
  have hpos := Nat.two_pow_pos e
  rw [add_half_eq he, floor_div_eq_iff one_pos]
  rcases Nat.eq_zero_or_pos index.val with hzero | hindex
  · have hunits : signed negative (units index) = 0 := by
      rw [hzero]
      exact signed_zero negative
    rw [round_of_zero negative hzero, hunits]
    exact ⟨toRat?_of_zero negative hzero, by omega⟩
  · obtain ⟨rfl, hsmall⟩ := h.resolve_left hindex.ne'
    have hle := units_strictMono.monotone hsmall
    rw [units_half he] at hle
    have hlt := units_strictMono hindex
    have hround : (finite true index).round = negativeZero := by
      rw [round_of_place (p := -index.val) rfl (by omega), if_pos (by omega)]
    rw [hround]
    refine ⟨toRat?_of_zero true rfl, ?_⟩
    simp only [signed, if_true]
    omega

theorem toRat?_round_of_pos (h : 0 < index.val) : (finite false index).round.toRat? =
    some ((⌊((signed false (units index) : ℤ) : ℚ) / one + 1 / 2⌋ +
      if index.val + 1 = 1022 * 2 ^ 52 ∨ IsOddWhole index then 1 else 0 : ℤ) : ℚ) := by
  have hround : (finite false index).round = floor (add (finite false index) half) := by
    rw [round_of_place (p := index.val) rfl (by omega), if_neg (by omega)]
  have hsum := toRat?_ofUnits false (nearest_add_half_lt he index.isLt)
  have hexact : signed false (units index) + (2 ^ e : ℕ) = signed false (units index + 2 ^ e) := by
    simp [signed]
  rw [hround, add_half_of_nonneg he, toRat?_floor hsum, floor_of_nonneg _ one_pos, div_sum_half he,
    add_half_eq he, hexact, floor_of_nonneg _ one_pos]
  generalize (units index + 2 ^ e) / one = m
  split <;> simp [signed]

theorem toRat?_round_of_neg (h : 1022 * 2 ^ 52 < index.val) : (finite true index).round.toRat? =
    some ((⌊((signed true (units index) : ℤ) : ℚ) / one + 1 / 2⌋ +
      if IsOddWhole index then 1 else 0 : ℤ) : ℚ) := by
  have hhalf := units_strictMono h
  rw [units_half he] at hhalf
  have hround : (finite true index).round = floor (add (finite true index) half) := by
    rw [round_of_place (p := -index.val) rfl (by omega), if_neg (by omega)]
  have hle : nearestIndex (units index - 2 ^ e) 1 ≤ index :=
    nearestIndex_le Nat.one_pos ((Nat.sub_le _ _).trans_eq (Nat.mul_one _).symm)
  have hsum := toRat?_ofUnits true (hle.trans_lt index.isLt)
  have hexact : signed true (units index) + (2 ^ e : ℕ) = signed true (units index - 2 ^ e) := by
    simp only [signed, if_true]
    omega
  rw [hround, add_half_of_neg he hhalf, toRat?_floor hsum, floor_of_nonpos _ one_pos,
    add_half_eq he, hexact, floor_of_nonpos _ one_pos, ← ceil_diff_half he h]
  generalize (units (nearestIndex (units index - 2 ^ e) 1) + (one - 1)) / one = m
  split <;> simp [signed]

end Values

/-! ## Where rounding goes too far -/

/-- The numbers from which rounding goes one too far: the last one before one half, and the odd whole
numbers between `2 ^ 52` and `2 ^ 53`. -/
def RoundsPast (q : ℚ) : Prop :=
  q = 1 / 2 - 1 / 2 ^ 54 ∨ ∃ n : ℤ, q = n ∧ Odd n ∧ 2 ^ 52 < |n| ∧ |n| < 2 ^ 53

theorem isOddWhole_iff (he : e = 1073) :
    IsOddWhole i ↔ ∃ k, units i = k * one ∧ k % 2 = 1 ∧ 2 ^ 52 < k ∧ k < 2 ^ 53 := by
  have hone : one = 2 ^ (e + 1) := by rw [one_eq_two_mul he, pow_succ']
  constructor
  · rintro ⟨hlow, hlt, hmod⟩
    obtain ⟨s, q, rfl, hq, hs⟩ := exists_grid i
    obtain rfl : s = e + 1 := by omega
    exact ⟨q, by rw [units_grid hq.le hs, hone], by omega, by omega, hq⟩
  · rintro ⟨k, hk, hmod, hlow, hlt⟩
    rw [hone, ← units_grid hlt.le (.inr hlow.le)] at hk
    obtain rfl := units_strictMono.injective hk
    exact ⟨by omega, by omega, by omega⟩

theorem eq_last_iff (he : e = 1073) :
    i + 1 = 1022 * 2 ^ 52 ↔ 2 ^ 54 * units i + one = 2 ^ 53 * one := by
  obtain ⟨s, rfl⟩ : ∃ s, e = s + 53 := ⟨1020, he⟩
  have hone := one_eq_two_mul he
  have hpow : 2 ^ (s + 53) = 2 ^ 53 * 2 ^ s := by rw [pow_add, Nat.mul_comm]
  have hlast := units_grid (s := s) (q := 2 ^ 53 - 1) (by decide) (.inr (by decide))
  have hindex : i + 1 = 1022 * 2 ^ 52 ↔ units i = units (s * 2 ^ 52 + (2 ^ 53 - 1)) := by
    rw [units_strictMono.injective.eq_iff]
    omega
  rw [hindex]
  omega

theorem natAbs_signed (negative : Bool) (n : Nat) : (signed negative n).natAbs = n := by
  cases negative <;> simp [signed]

/-- A number from which rounding goes one too far is known by its index. -/
theorem roundsPast_iff (he : e = 1073) (negative : Bool) (i : Nat) :
    RoundsPast (((signed negative (units i) : ℤ) : ℚ) / one) ↔
      negative = false ∧ i + 1 = 1022 * 2 ^ 52 ∨ IsOddWhole i := by
  have hpos := one_pos
  unfold RoundsPast
  rw [eq_last_iff he, isOddWhole_iff he]
  generalize units i = u
  generalize one = m at hpos ⊢
  have hpos' : (0 : ℚ) < m := by exact_mod_cast hpos
  refine or_congr ?_ ⟨?_, ?_⟩
  · rw [div_eq_iff hpos'.ne']
    have hcast : 2 ^ 54 * u + m = 2 ^ 53 * m ↔ 2 ^ 54 * (u : ℚ) + m = 2 ^ 53 * (m : ℚ) := by
      exact_mod_cast Iff.rfl
    rw [hcast]
    cases negative with
    | false =>
      simp only [signed, Bool.false_eq_true, if_false, Int.cast_natCast, true_and]
      constructor <;> intro h <;> linarith
    | true =>
      have hu : (0 : ℚ) ≤ u := u.cast_nonneg
      simp only [signed, if_true, Int.cast_neg, Int.cast_natCast, Bool.true_eq_false, false_and,
        iff_false]
      intro h
      linarith
  · rintro ⟨n, hn, hodd, hlow, hhigh⟩
    rw [div_eq_iff hpos'.ne'] at hn
    have hsigned : signed negative u = n * m := by exact_mod_cast hn
    have hu := natAbs_signed negative u
    rw [hsigned, Int.natAbs_mul, Int.natAbs_natCast] at hu
    rw [Int.abs_eq_natAbs] at hlow hhigh
    refine ⟨n.natAbs, hu.symm, Nat.odd_iff.mp (Int.natAbs_odd.mpr hodd), ?_, ?_⟩ <;> omega
  · rintro ⟨k, rfl, hmod, hlow, hlt⟩
    refine ⟨signed negative k, signed_mul_div negative k hpos, ?_, ?_, ?_⟩
    · rw [← Int.natAbs_odd, natAbs_signed]
      exact Nat.odd_iff.mpr hmod
    · rw [Int.abs_eq_natAbs, natAbs_signed]
      exact_mod_cast hlow
    · rw [Int.abs_eq_natAbs, natAbs_signed]
      exact_mod_cast hlt

/-! ## The result -/

/-- Two numbers with one value other than zero are the same. -/
theorem eq_of_toRat? (hne : q ≠ 0) (hx : x.toRat? = some q) (hy : y.toRat? = some q) : x = y := by
  obtain ⟨negative, index, rfl, rfl⟩ := exists_finite hx
  obtain ⟨negative', index', rfl, hdiv⟩ := exists_finite hy
  have hpos : (0 : ℚ) < one := by exact_mod_cast one_pos
  rw [div_left_inj' hpos.ne'] at hdiv
  have hsigned : signed negative' (units index') = signed negative (units index) := by
    exact_mod_cast hdiv
  have habs := congrArg Int.natAbs hsigned
  rw [natAbs_signed, natAbs_signed] at habs
  obtain rfl := Fin.ext (units_strictMono.injective habs)
  have hunits : units index' ≠ 0 := fun hzero => hne (by
    rw [hzero, signed_zero, Int.cast_zero, zero_div])
  cases negative <;> cases negative' <;> simp [signed] at hsigned ⊢ <;> omega

theorem toRat?_round (hx : x.toRat? = some q) :
    (¬ RoundsPast q → x.round.toRat? = some (⌊q + 1 / 2⌋ : ℚ)) ∧
      (RoundsPast q → x.round.toRat? = some (⌊q + 1 / 2⌋ + 1 : ℚ)) := by
  obtain ⟨e, he⟩ : ∃ e, e = 1073 := ⟨_, rfl⟩
  obtain ⟨negative, index, rfl, rfl⟩ := exists_finite hx
  rw [roundsPast_iff he]
  by_cases hsmall : index.val = 0 ∨ negative = true ∧ index.val ≤ 1022 * 2 ^ 52
  · obtain ⟨hround, hfloor⟩ := toRat?_round_of_small he index hsmall
    have hno : ¬ (negative = false ∧ index.val + 1 = 1022 * 2 ^ 52 ∨ IsOddWhole index) := by
      unfold IsOddWhole
      rcases hsmall with h | ⟨rfl, h⟩
      · omega
      · simp only [Bool.true_eq_false, false_and, false_or]
        omega
    rw [hround, hfloor]
    exact ⟨fun _ => rfl, fun h => absurd h hno⟩
  · cases negative with
    | false =>
      rw [toRat?_round_of_pos he index (Nat.pos_of_ne_zero fun h => hsmall (.inl h))]
      simp only [true_and]
      refine ⟨fun h => ?_, fun h => ?_⟩
      · rw [if_neg h, add_zero]
      · rw [if_pos h]
        push_cast
        rfl
    | true =>
      rw [toRat?_round_of_neg he index (Nat.lt_of_not_le fun h => hsmall (.inr ⟨rfl, h⟩))]
      simp only [Bool.true_eq_false, false_and, false_or]
      refine ⟨fun h => ?_, fun h => ?_⟩
      · rw [if_neg h, add_zero]
      · rw [if_pos h]
        push_cast
        rfl

/-- Only the two zeros have the value zero. -/
theorem eq_zero_of_toRat? (hx : x.toRat? = some 0) : x = zero ∨ x = negativeZero := by
  obtain ⟨negative, index, rfl, hdiv⟩ := exists_finite hx
  have hpos : (one : ℚ) ≠ 0 := by exact_mod_cast one_pos.ne'
  rw [div_eq_zero_iff, or_iff_left hpos, Int.cast_eq_zero] at hdiv
  have hunits := natAbs_signed negative (units index)
  rw [hdiv] at hunits
  obtain rfl : index = ⟨0, by decide⟩ := Fin.ext (units_strictMono.injective hunits.symm)
  cases negative with
  | false => exact .inl rfl
  | true => exact .inr rfl

theorem round_of_toRat?_zero (hx : x.toRat? = some 0) : x.round = x := by
  rcases eq_zero_of_toRat? hx with rfl | rfl <;> rfl

/-- Rounding takes every number to the floor of its exact sum with one half, which is the nearest whole
number, of two the greater, except the last number before one half and the odd whole numbers between
`2 ^ 52` and `2 ^ 53`: these go to the whole number after it. All other whole numbers, the two zeros
among them, stay what they are. -/
theorem round_exact (hx : x.toRat? = some q) :
    (x.round.toRat? = some (⌊q + 1 / 2⌋ : ℚ) ↔ ¬ RoundsPast q) ∧
      (RoundsPast q → x.round.toRat? = some (⌊q + 1 / 2⌋ + 1 : ℚ)) ∧
      ∀ n : ℤ, q = n → (x.round = x ↔ ¬ RoundsPast q) := by
  obtain ⟨hexact, hpast⟩ := toRat?_round hx
  have hiff : x.round.toRat? = some (⌊q + 1 / 2⌋ : ℚ) ↔ ¬ RoundsPast q := by
    refine ⟨fun h hq => ?_, hexact⟩
    rw [hpast hq, Option.some.injEq] at h
    linarith
  refine ⟨hiff, hpast, ?_⟩
  rintro n rfl
  have hfloor : ⌊(n : ℚ) + 1 / 2⌋ = n := by
    rw [Int.floor_intCast_add, show ⌊(1 / 2 : ℚ)⌋ = 0 by norm_num, Int.add_zero]
  rw [← hiff, hfloor]
  refine ⟨fun h => by rw [h, hx], fun h => ?_⟩
  rcases eq_or_ne (n : ℚ) 0 with hzero | hne
  · exact round_of_toRat?_zero (hx.trans (congrArg some hzero))
  · exact eq_of_toRat? hne h hx

/-- The number before one half goes to one, the first odd whole number after `2 ^ 52` to the next one;
minus five halves lies between two whole numbers and goes to the greater. -/
theorem round_exact_of_last_before_half :
    (parse "0.49999999999999994").toRat? = some (1 / 2 - 1 / 2 ^ 54) ∧
      RoundsPast (1 / 2 - 1 / 2 ^ 54) ∧
      (parse "0.49999999999999994").round.toRat? = some 1 ∧
      (parse "4503599627370497").round ≠ parse "4503599627370497" ∧
      (parse "-2.5").round.toRat? = some (-2) := by
  have hlast : (parse "0.49999999999999994").toRat? = some (1 / 2 - 1 / 2 ^ 54) := by decide +kernel
  have hodd : (parse "4503599627370497").toRat? = some (4503599627370497 : ℤ) := by decide +kernel
  have htie : (parse "-2.5").toRat? = some (-5 / 2) := by decide +kernel
  have hpast : RoundsPast (1 / 2 - 1 / 2 ^ 54) := .inl rfl
  have hpast' : RoundsPast (4503599627370497 : ℤ) := .inr ⟨_, rfl, by decide, by decide, by decide⟩
  have hnear : ¬ RoundsPast (-5 / 2) := by
    rintro (h | ⟨n, hn, -, hlow, -⟩)
    · norm_num at h
    · have htwice : ((2 * n : ℤ) : ℚ) = (-5 : ℤ) := by
        push_cast
        linarith
      have hn' := Int.cast_injective htwice
      omega
  refine ⟨hlast, hpast, ?_, fun h => ((round_exact hodd).2.2 _ rfl).mp h hpast', ?_⟩
  · rw [(round_exact hlast).2.1 hpast]
    norm_num
  · rw [(round_exact htie).1.mpr hnear]
    norm_num

end XPath.Number
