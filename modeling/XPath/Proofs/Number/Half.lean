import XPath.Proofs.Number.Rational
/-! Sums with one half, on magnitudes. Up to `2 ^ 52` the nearest magnitude to such a sum has the whole
part of the exact sum, but for the last number before one half, whose sum goes to one. Between `2 ^ 52`
and `2 ^ 53` magnitudes are the whole numbers, and each sum is halfway between two of them. From
`2 ^ 53` on one half is lost.

One half is `2 ^ 1073` units. The exponent stays a variable `e` with the equation `e = 1073`, since a
power with that literal in it would be evaluated. -/
namespace XPath.Number
set_option autoImplicit false

variable {s q e i j k n m : Nat}

/-! ## One half -/

theorem one_eq_two_mul (he : e = 1073) : one = 2 * 2 ^ e := by
  obtain ⟨e', he', hone⟩ := exists_one_eq
  obtain rfl : e' = e + 1 := by omega
  rw [hone, pow_succ, Nat.mul_comm]

/-- The powers of two from one half on, by their indices. -/
theorem units_power (he : e = 1073) (k : Nat) :
    units ((1022 + k) * 2 ^ 52) = 2 ^ k * 2 ^ e := by
  obtain ⟨s, rfl⟩ : ∃ s, e = s + 52 := ⟨1021, he⟩
  have hindex : (1022 + k) * 2 ^ 52 = (s + k) * 2 ^ 52 + 2 ^ 52 := by omega
  rw [hindex, units_grid (by decide) (.inr (by decide))]
  ring

theorem units_half (he : e = 1073) : units (1022 * 2 ^ 52) = 2 ^ e := by
  simpa using units_power he 0

theorem half_eq : ∃ hi : 1022 * 2 ^ 52 < limit, half = finite false ⟨1022 * 2 ^ 52, hi⟩ := by
  obtain ⟨e, he⟩ : ∃ e, e = 1073 := ⟨_, rfl⟩
  have hlt : 1022 * 2 ^ 52 < limit := by decide
  have hone : 1 * one = units (1022 * 2 ^ 52) * 2 := by
    rw [units_half he, one_eq_two_mul he]
    omega
  refine ⟨hlt, ?_⟩
  rw [half, ofFraction, ofUnits, hone, nearestIndex_units _ (by decide), ofIndex, dif_pos hlt]

/-! ## The nearest magnitude to a sum with one half -/

/-- Below the last number before one half, sums stay below one. -/
theorem nearest_below_half (he : e = 1073) (hi : i + 1 < 1022 * 2 ^ 52) :
    units (nearestIndex (units i + 2 ^ e) 1) < one := by
  obtain ⟨s, rfl⟩ : ∃ s, e = s + 53 := ⟨1020, he⟩
  have hhalf : 2 ^ (s + 53) = 2 ^ 53 * 2 ^ s := by rw [pow_add, Nat.mul_comm]
  have hdouble : 2 ^ (s + 1) = 2 * 2 ^ s := by rw [pow_succ, Nat.mul_comm]
  have hle : units i ≤ units (s * 2 ^ 52 + (2 ^ 53 - 2)) := units_strictMono.monotone (by omega)
  have hlast := units_grid (s := s + 1) (q := 2 ^ 53 - 1) (by decide) (.inr (by decide))
  rw [units_grid (by decide) (.inr (by decide))] at hle
  have hsum : units i + 2 ^ (s + 53) ≤ units ((s + 1) * 2 ^ 52 + (2 ^ 53 - 1)) * 1 := by omega
  have hnearest := units_strictMono.monotone (nearestIndex_le Nat.one_pos hsum)
  have hone := one_eq_two_mul he
  have hpos := Nat.two_pow_pos s
  omega

/-- The sum of the last number before one half is halfway to one and goes there. -/
theorem nearest_before_half (he : e = 1073) :
    units (nearestIndex (units (1022 * 2 ^ 52 - 1) + 2 ^ e) 1) = one := by
  obtain ⟨s, rfl⟩ : ∃ s, e = s + 53 := ⟨1020, he⟩
  have hhalf : 2 ^ (s + 53) = 2 ^ 53 * 2 ^ s := by rw [pow_add, Nat.mul_comm]
  have hdouble : 2 ^ (s + 1) = 2 * 2 ^ s := by rw [pow_succ, Nat.mul_comm]
  have hlast := units_grid (s := s) (q := 2 ^ 53 - 1) (by decide) (.inr (by decide))
  have hbefore := units_grid (s := s + 1) (q := 2 ^ 53 - 1) (by decide) (.inr (by decide))
  have hone := units_grid (s := s + 1) (q := 2 ^ 53) (by decide) (.inr (by decide))
  have hafter := units_strictMono (Nat.lt_add_one ((s + 1) * 2 ^ 52 + 2 ^ 53))
  have hnearest : nearestIndex (units (s * 2 ^ 52 + (2 ^ 53 - 1)) + 2 ^ (s + 53)) 1 =
      (s + 1) * 2 ^ 52 + 2 ^ 53 := by
    rw [nearestIndex_eq_iff Nat.one_pos, roundsTo_eq_true_iff,
      show (s + 1) * 2 ^ 52 + 2 ^ 53 - 1 = (s + 1) * 2 ^ 52 + (2 ^ 53 - 1) by omega]
    omega
  rw [show 1022 * 2 ^ 52 - 1 = s * 2 ^ 52 + (2 ^ 53 - 1) by omega, hnearest, hone,
    one_eq_two_mul he]
  omega

/-- A magnitude that is the exact result is also the rounded one. -/
theorem units_nearestIndex_of_eq (h : units j = n) : units (nearestIndex n 1) = n := by
  have hnearest := nearestIndex_units j Nat.one_pos
  rw [Nat.mul_one, h] at hnearest
  rw [hnearest, h]

theorem div_one_eq_of_le_half (he : e = 1073) (hle : m * one ≤ n) (hlt : n ≤ m * one + 2 ^ e) :
    n / one = m := by
  have hone := one_eq_two_mul he
  have hpos := Nat.two_pow_pos e
  refine Nat.div_eq_of_lt_le hle ?_
  rw [Nat.add_mul]
  omega

/-- Behind the power of two at the end of a grid, the sum with a wider power is a magnitude too. -/
theorem exists_units_eq_end_add (hlow : 1 ≤ k) (hhigh : k ≤ 53) (s : Nat) :
    ∃ j, units j = 2 ^ 53 * 2 ^ s + 2 ^ (s + k) := by
  have hdvd : 2 ^ (s + k) ∣ 2 ^ 53 * 2 ^ s := by
    rw [← pow_add]
    exact Nat.pow_dvd_pow 2 (by omega)
  have hdouble : 2 * 2 ^ s ≤ 2 ^ (s + k) := by
    rw [← pow_succ']
    exact Nat.pow_le_pow_right (by decide) (by omega)
  exact exists_units_eq (Nat.dvd_add hdvd (dvd_refl _)) (by omega)

/-- From one half up to `2 ^ 52`, the sum keeps the whole part of the exact one: it is exact itself, or
it lies between a power of two and one half more. -/
theorem nearest_add_half_div (he : e = 1073) (hlow : 1022 * 2 ^ 52 ≤ i) (hhigh : i < 1075 * 2 ^ 52) :
    units (nearestIndex (units i + 2 ^ e) 1) / one = (units i + 2 ^ e) / one := by
  obtain ⟨s, q, rfl, hq, hs⟩ := exists_grid i
  obtain ⟨r, rfl⟩ : ∃ r, e = s + r := ⟨e - s, by omega⟩
  have hone := one_eq_two_mul he
  rw [units_grid hq.le hs]
  have hsum : (q + 2 ^ r) * 2 ^ s = q * 2 ^ s + 2 ^ (s + r) := by ring
  by_cases hexact : q + 2 ^ r ≤ 2 ^ 53
  · obtain ⟨j, hj⟩ := exists_units_eq (Nat.dvd_mul_left (2 ^ s) (q + 2 ^ r))
      (Nat.mul_le_mul_right (2 ^ s) hexact)
    rw [units_nearestIndex_of_eq (hj.trans hsum)]
  · -- The exact sum is past the power of two at the end of the grid.
    have hpower := units_grid (s := s) (q := 2 ^ 53) le_rfl (.inr (by decide))
    have hwhole : 2 ^ (52 - r) * one = 2 ^ 53 * 2 ^ s := by
      rw [hone, ← pow_succ', ← pow_add, ← pow_add,
        show 52 - r + (s + r + 1) = 53 + s by omega]
    have hle : 2 ^ 53 * 2 ^ s ≤ q * 2 ^ s + 2 ^ (s + r) :=
      hsum ▸ Nat.mul_le_mul_right (2 ^ s) (Nat.le_of_not_le hexact)
    have hge : q * 2 ^ s ≤ 2 ^ 53 * 2 ^ s := Nat.mul_le_mul_right (2 ^ s) hq.le
    have hr : r ≠ 0 := by
      rintro rfl
      omega
    obtain ⟨j, hj⟩ := exists_units_eq_end_add (k := r) (by omega) (by omega) s
    have hlower := le_nearestIndex (i := s * 2 ^ 52 + 2 ^ 53) (n := q * 2 ^ s + 2 ^ (s + r))
      Nat.one_pos (by omega)
    have hupper := nearestIndex_le (i := j) (n := q * 2 ^ s + 2 ^ (s + r)) Nat.one_pos (by omega)
    replace hlower := units_strictMono.monotone hlower
    replace hupper := units_strictMono.monotone hupper
    rw [div_one_eq_of_le_half (m := 2 ^ (52 - r)) he (by omega) (by omega),
      div_one_eq_of_le_half (m := 2 ^ (52 - r)) he (by omega) (by omega)]

/-- From one half up to `2 ^ 52`, taking one half away is exact. -/
theorem nearest_sub_half (he : e = 1073) (hlow : 1022 * 2 ^ 52 < i) (hhigh : i ≤ 1075 * 2 ^ 52) :
    units (nearestIndex (units i - 2 ^ e) 1) = units i - 2 ^ e := by
  obtain ⟨s, q, hi, hq, hs⟩ := exists_grid (i - 1)
  obtain rfl : i = s * 2 ^ 52 + (q + 1) := by omega
  obtain ⟨r, rfl⟩ : ∃ r, e = s + r := ⟨e - s, by omega⟩
  have hfit : 2 ^ r ≤ 2 ^ 52 := Nat.pow_le_pow_right (by decide) (by omega)
  have hpos := Nat.two_pow_pos r
  have hdiff : (q + 1 - 2 ^ r) * 2 ^ s = (q + 1) * 2 ^ s - 2 ^ (s + r) := by
    rw [Nat.sub_mul, pow_add, Nat.mul_comm (2 ^ s)]
  obtain ⟨j, hj⟩ := exists_units_eq (Nat.dvd_mul_left (2 ^ s) (q + 1 - 2 ^ r))
    (Nat.mul_le_mul_right (2 ^ s) (show q + 1 - 2 ^ r ≤ 2 ^ 53 by omega))
  rw [units_grid (by omega) (by omega), units_nearestIndex_of_eq (hj.trans hdiff)]

section Whole

variable (he : e = 1073)
include he

/-- Between `2 ^ 52` and `2 ^ 53` the magnitudes are one apart. -/
theorem units_succ_of_whole (hlow : 1075 * 2 ^ 52 ≤ i) (hhigh : i < 1076 * 2 ^ 52) :
    units (i + 1) = units i + one := by
  obtain ⟨s, q, rfl, hq, hs⟩ := exists_grid i
  obtain rfl : s = e + 1 := by omega
  have hpow : 2 ^ (e + 1) = 2 * 2 ^ e := pow_succ' 2 e
  rw [units_grid_succ hq hs, one_eq_two_mul he, hpow]

/-- From `2 ^ 53` on they are at least two apart. -/
theorem units_add_two_le (hlow : 1076 * 2 ^ 52 ≤ i) : units i + (one + one) ≤ units (i + 1) := by
  have hgrid : (e + 2 + 1) * 2 ^ 52 ≤ i := by rwa [he]
  have hspacing := units_add_two_pow_le hgrid
  have hpow : 2 ^ (e + 2) = 2 * 2 ^ e + 2 * 2 ^ e := by ring
  rwa [one_eq_two_mul he, ← hpow]

/-- There the sum with one half is halfway between two magnitudes, and goes to the even one. -/
theorem nearest_add_half_of_whole (hlow : 1075 * 2 ^ 52 ≤ i) (hhigh : i < 1076 * 2 ^ 52) :
    nearestIndex (units i + 2 ^ e) 1 = i + i % 2 := by
  have hone := one_eq_two_mul he
  have hsucc := units_succ_of_whole he hlow hhigh
  rw [nearestIndex_eq_iff Nat.one_pos, roundsTo_eq_true_iff]
  rcases Nat.mod_two_eq_zero_or_one i with heven | hodd
  · have hpred := units_strictMono.monotone (Nat.sub_le i 1)
    rw [heven, Nat.add_zero]
    omega
  · have hnext := units_strictMono (Nat.lt_add_one (i + 1))
    rw [hodd, Nat.add_sub_cancel]
    omega

theorem nearest_sub_half_of_whole (hlow : 1075 * 2 ^ 52 < i) (hhigh : i < 1076 * 2 ^ 52) :
    nearestIndex (units i - 2 ^ e) 1 = i - i % 2 := by
  obtain ⟨k, rfl⟩ : ∃ k, i = k + 1 := ⟨i - 1, by omega⟩
  have hone := one_eq_two_mul he
  have hsucc := units_succ_of_whole he (i := k) (by omega) (by omega)
  rw [nearestIndex_eq_iff Nat.one_pos, roundsTo_eq_true_iff]
  rcases Nat.mod_two_eq_zero_or_one (k + 1) with heven | hodd
  · have hnext := units_strictMono (Nat.lt_add_one (k + 1))
    rw [heven, Nat.sub_zero, Nat.add_sub_cancel]
    omega
  · have hpred := units_strictMono.monotone (Nat.sub_le k 1)
    rw [hodd, Nat.add_sub_cancel]
    omega

/-- From `2 ^ 53` on one half is lost in the sum. -/
theorem nearest_add_half_of_wide (hlow : 1076 * 2 ^ 52 ≤ i) :
    nearestIndex (units i + 2 ^ e) 1 = i := by
  have hone := one_eq_two_mul he
  have hpos := one_pos
  have hnext := units_add_two_le he hlow
  have hpred := units_strictMono.monotone (Nat.sub_le i 1)
  rw [nearestIndex_eq_iff Nat.one_pos, roundsTo_eq_true_iff]
  omega

theorem nearest_sub_half_of_wide (hlow : 1076 * 2 ^ 52 ≤ i) :
    nearestIndex (units i - 2 ^ e) 1 = i := by
  obtain ⟨k, rfl⟩ : ∃ k, i = k + 1 := ⟨i - 1, by omega⟩
  have hone := one_eq_two_mul he
  have hpos := one_pos
  have hnext := units_strictMono (Nat.lt_add_one (k + 1))
  rw [nearestIndex_eq_iff Nat.one_pos, roundsTo_eq_true_iff, Nat.add_sub_cancel]
  rcases Nat.lt_or_eq_of_le hlow with hlow | hlow
  · have hspacing := units_add_two_le he (i := k) (by omega)
    omega
  · -- The magnitudes below `2 ^ 53` are one apart, but the index of `2 ^ 53` is even.
    have hsucc := units_succ_of_whole he (i := k) (by omega) (by omega)
    omega

end Whole

/-! ## Floors of sums -/

/-- The index is that of an odd whole number between `2 ^ 52` and `2 ^ 53`. -/
def IsOddWhole (i : Nat) : Prop := 1075 * 2 ^ 52 ≤ i ∧ i < 1076 * 2 ^ 52 ∧ i % 2 = 1

instance (i : Nat) : Decidable (IsOddWhole i) := inferInstanceAs (Decidable (_ ∧ _))

section Floors

variable (he : e = 1073)
include he

theorem exists_units_eq_of_whole (h : 1075 * 2 ^ 52 ≤ i) : ∃ m, units i = m * one := by
  have hlow : units (1075 * 2 ^ 52) = 2 ^ 53 * 2 ^ e := units_power he 53
  have hle := units_strictMono.monotone h
  have hone := one_eq_two_mul he
  obtain ⟨m, hm⟩ := one_dvd_units (i := i) (by omega)
  exact ⟨m, by rw [hm, Nat.mul_comm]⟩

theorem units_sum_of_whole (h : 1075 * 2 ^ 52 ≤ i) :
    units (nearestIndex (units i + 2 ^ e) 1) = units i + if IsOddWhole i then one else 0 := by
  by_cases hodd : IsOddWhole i
  · obtain ⟨hlow, hlt, hmod⟩ := hodd
    rw [nearest_add_half_of_whole he hlow hlt, hmod, units_succ_of_whole he hlow hlt,
      if_pos ⟨hlow, hlt, hmod⟩]
  · rw [if_neg hodd, Nat.add_zero]
    rcases Nat.lt_or_ge i (1076 * 2 ^ 52) with hlt | hwide
    · have heven : i % 2 = 0 := (Nat.mod_two_eq_zero_or_one i).resolve_right fun hmod =>
        hodd ⟨h, hlt, hmod⟩
      rw [nearest_add_half_of_whole he h hlt, heven, Nat.add_zero]
    · rw [nearest_add_half_of_wide he hwide]

theorem units_diff_of_whole (h : 1075 * 2 ^ 52 < i) :
    units (nearestIndex (units i - 2 ^ e) 1) + (if IsOddWhole i then one else 0) = units i := by
  by_cases hodd : IsOddWhole i
  · obtain ⟨hlow, hlt, hmod⟩ := hodd
    obtain ⟨k, rfl⟩ : ∃ k, i = k + 1 := ⟨i - 1, by omega⟩
    rw [nearest_sub_half_of_whole he h hlt, hmod, Nat.add_sub_cancel, if_pos ⟨hlow, hlt, hmod⟩,
      units_succ_of_whole he (by omega) (by omega)]
  · rw [if_neg hodd, Nat.add_zero]
    rcases Nat.lt_or_ge i (1076 * 2 ^ 52) with hlt | hwide
    · have heven : i % 2 = 0 := (Nat.mod_two_eq_zero_or_one i).resolve_right fun hmod =>
        hodd ⟨h.le, hlt, hmod⟩
      rw [nearest_sub_half_of_whole he h hlt, heven, Nat.sub_zero]
    · rw [nearest_sub_half_of_wide he hwide]

/-- Above zero, the floor of the sum is that of the exact sum, except from the last number before one
half and from the odd whole numbers between `2 ^ 52` and `2 ^ 53`, where it is one more. -/
theorem div_sum_half (i : Nat) :
    units (nearestIndex (units i + 2 ^ e) 1) / one =
      (units i + 2 ^ e) / one + if i + 1 = 1022 * 2 ^ 52 ∨ IsOddWhole i then 1 else 0 := by
  have hone := one_eq_two_mul he
  have hhalf := units_half he
  rcases Nat.lt_or_ge i (1022 * 2 ^ 52) with hlt | hlow
  · have hunits := units_strictMono hlt
    rw [Nat.div_eq_of_lt (show units i + 2 ^ e < one by omega)]
    by_cases hlast : i + 1 = 1022 * 2 ^ 52
    · obtain rfl : i = 1022 * 2 ^ 52 - 1 := by omega
      rw [nearest_before_half he, Nat.div_self one_pos, if_pos (.inl rfl)]
    · have hno : ¬ (i + 1 = 1022 * 2 ^ 52 ∨ IsOddWhole i) := fun h =>
        h.elim hlast fun hodd => absurd hodd.1 (by omega)
      rw [Nat.div_eq_of_lt (nearest_below_half he (by omega)), if_neg hno]
  have hlast : i + 1 ≠ 1022 * 2 ^ 52 := by omega
  rcases Nat.lt_or_ge i (1075 * 2 ^ 52) with hlt | hlow
  · have hno : ¬ (i + 1 = 1022 * 2 ^ 52 ∨ IsOddWhole i) := fun h =>
      h.elim hlast fun hodd => absurd hodd.1 (by omega)
    rw [nearest_add_half_div he hlow hlt, if_neg hno, Nat.add_zero]
  obtain ⟨m, hm⟩ := exists_units_eq_of_whole he hlow
  have hfloor : (units i + 2 ^ e) / one = m := div_one_eq_of_le_half he (by omega) (by omega)
  rw [hfloor, units_sum_of_whole he hlow, hm]
  by_cases h : IsOddWhole i
  · rw [if_pos h, if_pos (.inr h), ← Nat.succ_mul, Nat.mul_div_cancel _ one_pos]
  · rw [if_neg h, if_neg fun h' => h'.elim hlast h, Nat.add_zero, Nat.mul_div_cancel _ one_pos,
      Nat.add_zero]

/-- Below minus one half, the floor of the sum is that of the exact sum, except from the odd whole
numbers between `2 ^ 52` and `2 ^ 53`, where it is one more. -/
theorem ceil_diff_half (hi : 1022 * 2 ^ 52 < i) :
    (units (nearestIndex (units i - 2 ^ e) 1) + (one - 1)) / one +
      (if IsOddWhole i then 1 else 0) = (units i - 2 ^ e + (one - 1)) / one := by
  have hone := one_eq_two_mul he
  have hpos := Nat.two_pow_pos e
  rcases Nat.lt_or_ge (1075 * 2 ^ 52) i with hlow | hle
  · obtain ⟨m, hm⟩ := exists_units_eq_of_whole he hlow.le
    have hlt := units_strictMono hi
    rw [units_half he] at hlt
    have hceil : (units i - 2 ^ e + (one - 1)) / one = m :=
      div_one_eq_of_le_half he (by omega) (by omega)
    have hself : ∀ k, (k * one + (one - 1)) / one = k := fun k => by
      rw [Nat.mul_comm, Nat.mul_add_div one_pos, Nat.div_eq_of_lt (by omega), Nat.add_zero]
    have hdiff := units_diff_of_whole he hlow
    rw [hceil]
    by_cases h : IsOddWhole i
    · rw [if_pos h] at hdiff ⊢
      obtain ⟨k, rfl⟩ : ∃ k, m = k + 1 := Nat.exists_eq_succ_of_ne_zero fun hzero => by
        rw [hm, hzero, Nat.zero_mul] at hlt
        omega
      rw [Nat.succ_mul] at hm
      rw [show units (nearestIndex (units i - 2 ^ e) 1) = k * one by omega, hself]
    · rw [if_neg h, Nat.add_zero] at hdiff ⊢
      rw [hdiff, hm, hself]
  · have hno : ¬ IsOddWhole i := fun h => by
      obtain ⟨hlow, -, hmod⟩ := h
      omega
    rw [nearest_sub_half he hi hle, if_neg hno, Nat.add_zero]

end Floors

end XPath.Number
