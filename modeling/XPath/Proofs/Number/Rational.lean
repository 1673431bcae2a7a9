import Mathlib.Data.Rat.Floor
import XPath.Number.Arithmetic
import XPath.Proofs.Number.Nearest
/-! What numbers are: the rational number that each finite one stands for. Whole numbers up to `2 ^ 53`
have a number each, and from `2 ^ 52` on every number is whole, so that the floor of a number is a number. -/
namespace XPath.Number
set_option autoImplicit false

variable {x : Number} {q : ℚ} {i j k : Nat}

/-- The rational number that a finite number is. -/
def toRat? : Number → Option ℚ
  | finite negative index => some (signed negative (units index) / one)
  | _ => none

/-- Only a finite number has a value. -/
theorem exists_finite (h : x.toRat? = some q) : ∃ (negative : Bool) (index : Fin limit),
    x = finite negative index ∧ ((signed negative (units index) : ℤ) : ℚ) / one = q := by
  cases x with
  | nan => cases h
  | infinite negative => cases h
  | finite negative index => exact ⟨negative, index, rfl, Option.some.inj h⟩

/-! ## The range of magnitudes -/

theorem exists_one_eq : ∃ e, e = 1074 ∧ one = 2 ^ e := ⟨1074, rfl, by decide +kernel⟩

theorem one_pos : 0 < one := by
  obtain ⟨e, -, hone⟩ := exists_one_eq
  exact hone ▸ Nat.two_pow_pos e

theorem lt_limit_of_units_lt (h : units i < 2 ^ 54 * one) : i < limit := by
  obtain ⟨e, he, hone⟩ := exists_one_eq
  have hlimit : limit = (e + 972) * 2 ^ 52 + 2 ^ 52 := by
    rw [limit, Nat.pow_eq]
    omega
  have hunits := units_grid (s := e + 972) (q := 2 ^ 52) (by decide) (.inr (by decide))
  have hle : 2 ^ 54 * one ≤ 2 ^ 52 * 2 ^ (e + 972) := by
    rw [hone, ← pow_add, ← pow_add]
    exact Nat.pow_le_pow_right (by decide) (by omega)
  exact units_strictMono.lt_iff_lt.mp (by rw [hlimit, hunits]; omega)

theorem ofUnits_units (negative : Bool) (hi : i < limit) :
    ofUnits negative (units i) 1 = finite negative ⟨i, hi⟩ := by
  have hnearest := nearestIndex_units i Nat.one_pos
  rw [Nat.mul_one] at hnearest
  rw [ofUnits, ofIndex, hnearest, dif_pos hi]

/-! ## Whole numbers -/

/-- Every whole number up to `2 ^ 53` is a magnitude. -/
theorem exists_units_eq_mul_one (hk : k ≤ 2 ^ 53) : ∃ i, i < limit ∧ units i = k * one := by
  obtain ⟨e, -, hone⟩ := exists_one_eq
  rw [hone]
  obtain ⟨i, hi⟩ := exists_units_eq (Nat.dvd_mul_left (2 ^ e) k) (Nat.mul_le_mul_right (2 ^ e) hk)
  refine ⟨i, lt_limit_of_units_lt ?_, hi⟩
  rw [hi, hone]
  exact Nat.mul_lt_mul_of_pos_right (by omega) (Nat.two_pow_pos e)

/-- From `2 ^ 52` on every magnitude is a whole number. -/
theorem one_dvd_units (h : 2 ^ 52 * one ≤ units i) : one ∣ units i := by
  obtain ⟨e, -, hone⟩ := exists_one_eq
  rw [hone] at h ⊢
  obtain ⟨s, q, rfl, hq, hs⟩ := exists_grid i
  rw [units_grid hq.le hs] at h ⊢
  refine Nat.dvd_mul_left_of_dvd (Nat.pow_dvd_pow 2 ?_) q
  -- On a finer grid the magnitudes end below `2 ^ 52`.
  by_contra hlt
  have hdouble : 2 * 2 ^ s ≤ 2 ^ e := by
    rw [← pow_succ']
    exact Nat.pow_le_pow_right (by decide) (by omega)
  have hend := Nat.mul_lt_mul_of_pos_right hq (Nat.two_pow_pos s)
  omega

theorem ofNat_eq (hk : k ≤ 2 ^ 53) : ∃ i, ∃ hi : i < limit,
    ofNat k = finite false ⟨i, hi⟩ ∧ units i = k * one := by
  obtain ⟨i, hi, hunits⟩ := exists_units_eq_mul_one hk
  exact ⟨i, hi, by rw [ofNat, ofFraction, ← hunits, ofUnits_units false hi], hunits⟩

/-- Whole numbers up to `2 ^ 53` are told apart. -/
theorem equals_ofNat (hj : j ≤ 2 ^ 53) (hk : k ≤ 2 ^ 53) :
    (ofNat j).equals (ofNat k) = decide (j = k) := by
  obtain ⟨a, ha, hja, hunitsa⟩ := ofNat_eq hj
  obtain ⟨b, hb, hkb, hunitsb⟩ := ofNat_eq hk
  have hiff : a = b ↔ j = k := by
    rw [← units_strictMono.injective.eq_iff, hunitsa, hunitsb, Nat.mul_left_inj one_pos.ne']
  rw [hja, hkb, equals, Bool.eq_iff_iff, decide_eq_true_eq, ← hiff]
  simp [place]

/-! ## Floors -/

theorem floor_div_eq_iff {a z : ℤ} {m : ℕ} (hm : 0 < m) :
    ⌊(a : ℚ) / m⌋ = z ↔ z * m ≤ a ∧ a < (z + 1) * m := by
  have hpos : (0 : ℚ) < m := by exact_mod_cast hm
  rw [Int.floor_eq_iff, le_div_iff₀ hpos, div_lt_iff₀ hpos]
  norm_cast

theorem floor_of_nonneg (n : ℕ) {m : ℕ} (hm : 0 < m) :
    ⌊((signed false n : ℤ) : ℚ) / m⌋ = signed false (n / m) := by
  rw [floor_div_eq_iff hm]
  have hle := Nat.div_mul_le_self n m
  have hlt := Nat.lt_div_mul_add hm (a := n)
  simp only [signed, Bool.false_eq_true, if_false]
  exact ⟨by exact_mod_cast hle, by rw [Int.add_mul, Int.one_mul]; exact_mod_cast hlt⟩

/-- Below zero, the floor is found by rounding the magnitude up. -/
theorem floor_of_nonpos (n : ℕ) {m : ℕ} (hm : 0 < m) :
    ⌊((signed true n : ℤ) : ℚ) / m⌋ = signed true ((n + (m - 1)) / m) := by
  rw [floor_div_eq_iff hm]
  have hle := Nat.div_mul_le_self (n + (m - 1)) m
  have hlt := Nat.lt_div_mul_add hm (a := n + (m - 1))
  simp only [signed, if_true]
  generalize (n + (m - 1)) / m = c at hle hlt ⊢
  have hupper : (n : ℤ) ≤ c * m := by exact_mod_cast (show n ≤ c * m by omega)
  have hlower : (c : ℤ) * m < n + m := by exact_mod_cast (show c * m < n + m by omega)
  rw [Int.add_mul, Int.neg_mul, Int.one_mul]
  omega

theorem exists_units_eq_div (hi : i < limit) : ∃ j, j < limit ∧ units j = units i / one * one := by
  rcases Nat.lt_or_ge (units i) (2 ^ 53 * one) with hlt | hle
  · exact exists_units_eq_mul_one (Nat.div_lt_of_lt_mul (by rwa [Nat.mul_comm] at hlt)).le
  · exact ⟨i, hi, (Nat.div_mul_cancel (one_dvd_units (by omega))).symm⟩

theorem exists_units_eq_ceil (hi : i < limit) :
    ∃ j, j < limit ∧ units j = (units i + (one - 1)) / one * one := by
  have hpos := one_pos
  rcases Nat.lt_or_ge (units i) (2 ^ 53 * one) with hlt | hle
  · refine exists_units_eq_mul_one (Nat.lt_succ_iff.mp (Nat.div_lt_of_lt_mul ?_))
    rw [Nat.mul_succ, Nat.mul_comm one]
    omega
  · obtain ⟨m, hm⟩ := one_dvd_units (i := i) (by omega)
    refine ⟨i, hi, ?_⟩
    rw [hm, Nat.mul_add_div hpos, Nat.div_eq_of_lt (by omega), Nat.add_zero, Nat.mul_comm]

/-- A whole number of ones, as a rational. -/
theorem signed_mul_div (negative : Bool) (k : ℕ) {m : ℕ} (hm : 0 < m) :
    ((signed negative (k * m) : ℤ) : ℚ) / m = (signed negative k : ℤ) := by
  have hne : (m : ℚ) ≠ 0 := by exact_mod_cast hm.ne'
  cases negative <;> simp [signed, hne, neg_div]

/-- The floor of a number is exact. -/
theorem toRat?_floor (h : x.toRat? = some q) : x.floor.toRat? = some (⌊q⌋ : ℚ) := by
  have hpos := one_pos
  obtain ⟨negative, index, rfl, rfl⟩ := exists_finite h
  cases negative with
  | false =>
    obtain ⟨j, hj, hunits⟩ := exists_units_eq_div index.isLt
    rw [floor, ofFraction, ← hunits, ofUnits_units false hj, toRat?, hunits,
      signed_mul_div false _ hpos, floor_of_nonneg _ hpos]
  | true =>
    obtain ⟨j, hj, hunits⟩ := exists_units_eq_ceil index.isLt
    rw [floor, ofFraction, ← hunits, ofUnits_units true hj, toRat?, hunits,
      signed_mul_div true _ hpos, floor_of_nonpos _ hpos]

end XPath.Number
