import Mathlib.Algebra.Order.Group.Nat
import Mathlib.Data.Nat.Log
import Mathlib.Order.Monotone.Basic
import Mathlib.Tactic.Ring
import XPath.Number.Shortest
/-! Rounding to the nearest magnitude. The magnitudes lie on grids: from one power of two to the next
they are the multiples of a power of two, and the next grid is twice as wide. The index that rounding
finds is the one in whose interval the quotient lies, ends included where the index is even; so a
quotient that is a magnitude stays what it is, and a greater quotient is never rounded to less. -/
namespace XPath.Number
set_option autoImplicit false

variable {s q i j n d : Nat}

/-! ## Magnitudes -/

/-- Every index counts the places on a grid, from the first one that the finer grids leave to it. -/
theorem exists_grid (i : Nat) :
    ∃ s q, i = s * 2 ^ 52 + q ∧ q < 2 ^ 53 ∧ (s = 0 ∨ 2 ^ 52 ≤ q) :=
  ⟨i / 2 ^ 52 - 1, i - (i / 2 ^ 52 - 1) * 2 ^ 52, by omega, by omega, by omega⟩

/-- On a grid, magnitudes are multiples. The place past the last one is the first of the next grid. -/
theorem units_grid (hq : q ≤ 2 ^ 53) (hs : s = 0 ∨ 2 ^ 52 ≤ q) :
    units (s * 2 ^ 52 + q) = q * 2 ^ s := by
  unfold units
  simp only [Nat.pow_eq]
  split
  · next hlt =>
    obtain rfl : s = 0 := by omega
    omega
  · next hle =>
    rcases Nat.lt_or_eq_of_le hq with hq | rfl
    · have hmod : 2 ^ 52 + (s * 2 ^ 52 + q) % 2 ^ 52 = q := by omega
      have hdiv : (s * 2 ^ 52 + q) / 2 ^ 52 - 1 = s := by omega
      rw [hmod, hdiv]
    · have hmod : 2 ^ 52 + (s * 2 ^ 52 + 2 ^ 53) % 2 ^ 52 = 2 ^ 52 := by omega
      have hdiv : (s * 2 ^ 52 + 2 ^ 53) / 2 ^ 52 - 1 = s + 1 := by omega
      rw [hmod, hdiv, pow_succ]
      ring

/-- One place further on a grid lies one multiple more. -/
theorem units_grid_succ (hq : q < 2 ^ 53) (hs : s = 0 ∨ 2 ^ 52 ≤ q) :
    units (s * 2 ^ 52 + q + 1) = units (s * 2 ^ 52 + q) + 2 ^ s := by
  rw [Nat.add_assoc, units_grid (by omega) (by omega), units_grid (by omega) hs]
  ring

/-- The grid is left for a wider one only. -/
theorem units_grid_succ_ge (hq : q ≤ 2 ^ 53) (hs : s = 0 ∨ 2 ^ 52 ≤ q) :
    (q + 1) * 2 ^ s ≤ units (s * 2 ^ 52 + q + 1) := by
  rcases Nat.lt_or_eq_of_le hq with hq | rfl
  · rw [Nat.add_assoc, units_grid (by omega) (by omega)]
  · have hindex : s * 2 ^ 52 + 2 ^ 53 + 1 = (s + 1) * 2 ^ 52 + (2 ^ 52 + 1) := by omega
    rw [hindex, units_grid (by omega) (by omega), pow_succ]
    have hpos := Nat.two_pow_pos s
    omega

theorem units_strictMono : StrictMono units := by
  refine strictMono_nat_of_lt_succ fun i => ?_
  obtain ⟨s, q, rfl, hq, hs⟩ := exists_grid i
  rw [units_grid_succ hq hs]
  exact Nat.lt_add_of_pos_right (Nat.two_pow_pos s)

/-- From the grid of a power of two on, magnitudes are at least that power apart. -/
theorem units_add_two_pow_le (h : (s + 1) * 2 ^ 52 ≤ i) : units i + 2 ^ s ≤ units (i + 1) := by
  obtain ⟨s', q, rfl, hq, hs⟩ := exists_grid i
  rw [units_grid_succ hq hs]
  exact Nat.add_le_add_left (Nat.pow_le_pow_right (by decide) (by omega)) _

/-- The multiples of a power of two are magnitudes as far as `2 ^ 53` times that power. -/
theorem exists_units_eq {e : Nat} (hdvd : 2 ^ e ∣ n) (hle : n ≤ 2 ^ 53 * 2 ^ e) :
    ∃ i, units i = n := by
  induction e with
  | zero => exact ⟨0 * 2 ^ 52 + n, by rw [units_grid (by omega) (.inl rfl), Nat.pow_zero, Nat.mul_one]⟩
  | succ e ih =>
    obtain ⟨q, rfl⟩ := hdvd
    have hq : q ≤ 2 ^ 53 := by
      rw [Nat.mul_comm] at hle
      exact Nat.le_of_mul_le_mul_right hle (Nat.two_pow_pos _)
    by_cases hfirst : 2 ^ 52 ≤ q
    · exact ⟨(e + 1) * 2 ^ 52 + q, by rw [units_grid hq (.inr hfirst), Nat.mul_comm]⟩
    · -- Short of the half, the multiples belong to the finer grid.
      refine ih (Nat.dvd_mul_right_of_dvd (Nat.pow_dvd_pow 2 (Nat.le_succ e)) q) ?_
      calc 2 ^ (e + 1) * q = 2 * q * 2 ^ e := by ring
        _ ≤ 2 ^ 53 * 2 ^ e := Nat.mul_le_mul_right _ (by omega)

/-! ## Quotients -/

theorem div_le_divideToEven (n d : Nat) :
    n / d ≤ divideToEven n d ∧ divideToEven n d ≤ n / d + 1 := by
  unfold divideToEven
  dsimp only
  split
  · omega
  · split <;> omega

/-- The whole number is at most a half away from the quotient, and less than a half if it is odd. -/
theorem divideToEven_near (hd : 0 < d) (hq : divideToEven n d = q) :
    2 * q * d ≤ 2 * n + d ∧ 2 * n ≤ 2 * q * d + d ∧
      (q % 2 = 1 → 2 * q * d < 2 * n + d ∧ 2 * n < 2 * q * d + d) := by
  have hmod := Nat.mod_lt n hd
  have hn : 2 * n = 2 * (n / d) * d + 2 * (n % d) := by
    rw [Nat.mul_assoc, Nat.mul_comm (n / d), ← Nat.mul_add, Nat.div_add_mod]
  have hsucc : 2 * (n / d + 1) * d = 2 * (n / d) * d + 2 * d := by ring
  unfold divideToEven at hq
  dsimp only at hq
  split at hq
  · subst hq
    omega
  · split at hq
    · subst hq
      omega
    · rcases Nat.mod_two_eq_zero_or_one (n / d) with heven | hodd
      · rw [heven, Nat.add_zero] at hq
        subst hq
        omega
      · rw [hodd] at hq
        subst hq
        omega

theorem roundsTo_eq_true_iff : roundsTo i n d = true ↔
    (units (i - 1) + units i) * d ≤ 2 * n ∧ 2 * n ≤ (units i + units (i + 1)) * d ∧
      (i % 2 = 1 → (units (i - 1) + units i) * d < 2 * n ∧
        2 * n < (units i + units (i + 1)) * d) := by
  unfold roundsTo
  dsimp only
  split
  · simp only [Bool.and_eq_true, decide_eq_true_eq]
    omega
  · simp only [Bool.and_eq_true, decide_eq_true_eq]
    omega

/-- A quotient is rounded on a grid that holds both of its neighbours. -/
theorem nearestIndex_grid (n d : Nat) : ∃ s, nearestIndex n d =
      s * 2 ^ 52 + divideToEven n (d * 2 ^ s) ∧ divideToEven n (d * 2 ^ s) ≤ 2 ^ 53 ∧
      (s = 0 ∨ 2 ^ 52 * (d * 2 ^ s) ≤ n) := by
  refine ⟨(n / d).log2 - 52, rfl, ?_, ?_⟩
  · have hlt : n / d < 2 ^ 53 * 2 ^ ((n / d).log2 - 52) := by
      rw [← pow_add]
      exact Nat.lt_log2_self.trans_le (Nat.pow_le_pow_right (by decide) (by omega))
    have hdiv : n / (d * 2 ^ ((n / d).log2 - 52)) < 2 ^ 53 := by
      rw [← Nat.div_div_eq_div_mul]
      exact Nat.div_lt_of_lt_mul (by rwa [Nat.mul_comm] at hlt)
    exact (div_le_divideToEven _ _).2.trans hdiv
  · by_cases hs : (n / d).log2 - 52 = 0
    · exact .inl hs
    · have hne : n / d ≠ 0 := fun hzero => hs (by rw [hzero]; rfl)
      have hle := Nat.log2_self_le hne
      right
      calc 2 ^ 52 * (d * 2 ^ ((n / d).log2 - 52)) = 2 ^ (52 + ((n / d).log2 - 52)) * d := by
            rw [pow_add]; ring
        _ = 2 ^ (n / d).log2 * d := by rw [Nat.add_sub_cancel' (by omega)]
        _ ≤ n / d * d := Nat.mul_le_mul_right d hle
        _ ≤ n := Nat.div_mul_le_self n d

/-! ## The nearest magnitude -/

/-- The quotient lies in the interval of the index that it is rounded to. -/
theorem roundsTo_nearestIndex (n : Nat) (hd : 0 < d) : roundsTo (nearestIndex n d) n d = true := by
  obtain ⟨s, hindex, hq, hs⟩ := nearestIndex_grid n d
  have hD : 0 < d * 2 ^ s := Nat.mul_pos hd (Nat.two_pow_pos s)
  obtain ⟨hlow, hhigh, hodd⟩ := divideToEven_near (n := n) hD rfl
  have hfirst : s = 0 ∨ 2 ^ 52 ≤ divideToEven n (d * 2 ^ s) := by
    refine hs.imp_right fun hle => ?_
    exact ((Nat.le_div_iff_mul_le hD).mpr hle).trans (div_le_divideToEven _ _).1
  generalize divideToEven n (d * 2 ^ s) = q at *
  have hunits := units_grid hq hfirst
  have hupper : 2 * q * (d * 2 ^ s) + d * 2 ^ s ≤
      (q * 2 ^ s + units (s * 2 ^ 52 + q + 1)) * d := by
    calc 2 * q * (d * 2 ^ s) + d * 2 ^ s = (q * 2 ^ s + (q + 1) * 2 ^ s) * d := by ring
      _ ≤ _ := Nat.mul_le_mul_right d (Nat.add_le_add_left (units_grid_succ_ge hq hfirst) _)
  rw [hindex, roundsTo_eq_true_iff, hunits]
  by_cases hinner : s = 0 ∧ 0 < q ∨ 2 ^ 52 < q
  · -- The index before is on the same grid.
    obtain ⟨p, rfl⟩ : ∃ p, q = p + 1 := ⟨q - 1, by omega⟩
    have hpred : units (s * 2 ^ 52 + (p + 1) - 1) = p * 2 ^ s := by
      rw [← Nat.add_assoc, Nat.add_sub_cancel, units_grid (by omega) (by omega)]
    have hlower : (p * 2 ^ s + (p + 1) * 2 ^ s) * d + d * 2 ^ s = 2 * (p + 1) * (d * 2 ^ s) := by
      ring
    rw [hpred]
    omega
  · -- The quotient is not below the first magnitude of its grid.
    have hle : q * 2 ^ s * d ≤ n := by
      by_cases hzero : s = 0
      · obtain rfl : q = 0 := by omega
        simp
      · obtain rfl : q = 2 ^ 52 := by omega
        calc 2 ^ 52 * 2 ^ s * d = 2 ^ 52 * (d * 2 ^ s) := by ring
          _ ≤ n := hs.resolve_left hzero
    have hpred : units (s * 2 ^ 52 + q - 1) ≤ q * 2 ^ s :=
      hunits ▸ units_strictMono.monotone (Nat.sub_le _ 1)
    have hlower := Nat.mul_le_mul_right d hpred
    rw [Nat.add_mul]
    omega

/-- The intervals lie in the order of their indices, so a greater quotient is never rounded to less. -/
theorem roundsTo_le {m : Nat} (hd : 0 < d) (hnm : n ≤ m) (hi : roundsTo i n d = true)
    (hj : roundsTo j m d = true) : i ≤ j := by
  by_contra hlt
  have hji : j < i := Nat.lt_of_not_le hlt
  rw [roundsTo_eq_true_iff] at hi hj
  obtain ⟨hlow, -, hodd⟩ := hi
  obtain ⟨-, hhigh, hodd'⟩ := hj
  rcases Nat.lt_or_eq_of_le (Nat.succ_le_of_lt hji) with hbetween | rfl
  · -- With an index in between, the upper end of one lies below the lower end of the other.
    have hfirst := units_strictMono.monotone (show j ≤ i - 1 by omega)
    have hsecond := units_strictMono hbetween
    have hends : (units j + units (j + 1)) * d < (units (i - 1) + units i) * d :=
      Nat.mul_lt_mul_of_pos_right (Nat.add_lt_add_of_le_of_lt hfirst hsecond) hd
    omega
  · -- Two indices in a row share an end, which belongs to the even one only.
    rw [Nat.succ_eq_add_one, Nat.add_sub_cancel] at hlow hodd
    omega

/-- The intervals of two indices have no quotient in common. -/
theorem roundsTo_unique (hd : 0 < d) (hi : roundsTo i n d = true) (hj : roundsTo j n d = true) :
    i = j :=
  Nat.le_antisymm (roundsTo_le hd le_rfl hi hj) (roundsTo_le hd le_rfl hj hi)

theorem nearestIndex_eq_iff (hd : 0 < d) : nearestIndex n d = i ↔ roundsTo i n d = true :=
  ⟨fun h => h ▸ roundsTo_nearestIndex n hd, fun h => roundsTo_unique hd (roundsTo_nearestIndex n hd) h⟩

theorem nearestIndex_mono {m : Nat} (hd : 0 < d) (h : n ≤ m) : nearestIndex n d ≤ nearestIndex m d :=
  roundsTo_le hd h (roundsTo_nearestIndex n hd) (roundsTo_nearestIndex m hd)

/-- A magnitude is the nearest one to itself. -/
theorem nearestIndex_units (i : Nat) (hd : 0 < d) : nearestIndex (units i * d) d = i := by
  rw [nearestIndex_eq_iff hd, roundsTo_eq_true_iff]
  have hsucc := Nat.mul_lt_mul_of_pos_right (units_strictMono (Nat.lt_add_one i)) hd
  have hpred := Nat.mul_le_mul_right d (units_strictMono.monotone (Nat.sub_le i 1))
  have hodd : i % 2 = 1 → units (i - 1) * d < units i * d := fun h =>
    Nat.mul_lt_mul_of_pos_right (units_strictMono (by omega)) hd
  rw [Nat.add_mul, Nat.add_mul]
  omega

/-- What is not below a magnitude is not rounded to below it. -/
theorem le_nearestIndex (hd : 0 < d) (h : units i * d ≤ n) : i ≤ nearestIndex n d :=
  (nearestIndex_units i hd).symm.trans_le (nearestIndex_mono hd h)

/-- What is not above a magnitude is not rounded to above it. -/
theorem nearestIndex_le (hd : 0 < d) (h : n ≤ units i * d) : nearestIndex n d ≤ i :=
  (nearestIndex_mono hd h).trans_eq (nearestIndex_units i hd)

end XPath.Number
