import XPath.Proofs.Number.Round
/-! The order of numbers, and the whole numbers in it. Counts are rounded in their order, and up to
`2 ^ 53` they are exact; so a comparison with a whole number of that size is decided as if every count
were exact. Sums of whole numbers are exact as far. -/
namespace XPath.Number
set_option autoImplicit false

variable {x y z : Number} {i j : ℤ} {k a p q : Nat}

/-! ## The order -/

theorem le_eq_true_iff :
    x.le y = true ↔ ∃ a b, x.place = some a ∧ y.place = some b ∧ a ≤ b := by
  unfold le
  cases x.place <;> cases y.place <;> simp

theorem lt_eq_true_iff :
    x.lt y = true ↔ ∃ a b, x.place = some a ∧ y.place = some b ∧ a < b := by
  unfold lt
  cases x.place <;> cases y.place <;> simp

protected theorem le_trans (hxy : x.le y = true) (hyz : y.le z = true) : x.le z = true := by
  rw [le_eq_true_iff] at hxy hyz ⊢
  obtain ⟨a, b, hx, hy, hab⟩ := hxy
  obtain ⟨b', c, hy', hz, hbc⟩ := hyz
  obtain rfl := Option.some.inj (hy.symm.trans hy')
  exact ⟨a, c, hx, hz, hab.trans hbc⟩

protected theorem lt_of_le_of_lt (hxy : x.le y = true) (hyz : y.lt z = true) : x.lt z = true := by
  rw [le_eq_true_iff] at hxy
  rw [lt_eq_true_iff] at hyz ⊢
  obtain ⟨a, b, hx, hy, hab⟩ := hxy
  obtain ⟨b', c, hy', hz, hbc⟩ := hyz
  obtain rfl := Option.some.inj (hy.symm.trans hy')
  exact ⟨a, c, hx, hz, hab.trans_lt hbc⟩

/-! ## Counts -/

theorem place_ofNat (p : Nat) :
    (ofNat p).place = some ((min (nearestIndex (p * one) 1) limit : ℕ) : ℤ) := by
  unfold ofNat ofFraction ofUnits ofIndex
  split
  · next h => simp only [place, Bool.false_eq_true, if_false, Nat.min_eq_left h.le]
  · next h => simp only [place, Bool.false_eq_true, if_false, Nat.min_eq_right (Nat.le_of_not_lt h)]

/-- Counts too large to be exact keep their order. -/
theorem ofNat_le_ofNat (h : p ≤ q) : (ofNat p).le (ofNat q) = true := by
  have hmono := nearestIndex_mono Nat.one_pos (Nat.mul_le_mul_right one h)
  rw [le_eq_true_iff]
  refine ⟨_, _, place_ofNat p, place_ofNat q, ?_⟩
  exact_mod_cast min_le_min_right limit hmono

/-- A whole number of ones is reached by just the counts from it on. -/
theorem le_nearestIndex_iff (ha : units a = k * one) (hk : k ≤ 2 ^ 53) :
    a ≤ nearestIndex (p * one) 1 ↔ k ≤ p := by
  constructor
  · intro hle
    by_contra hlt
    obtain ⟨b, -, hb⟩ := exists_units_eq_mul_one (k := p) (by omega)
    have hp := nearestIndex_units b Nat.one_pos
    rw [Nat.mul_one, hb] at hp
    rw [hp] at hle
    have hunits := units_strictMono.monotone hle
    rw [ha, hb] at hunits
    exact hlt (Nat.le_of_mul_le_mul_right hunits one_pos)
  · intro hle
    refine le_nearestIndex Nat.one_pos ?_
    rw [ha, Nat.mul_one]
    exact Nat.mul_le_mul_right one hle

/-- Infinity lies behind every count that a number can come near to. -/
theorem ofNat_lt_infinite (hp : p ≤ 2 ^ 1023) : (ofNat p).lt (infinite false) = true := by
  obtain ⟨e, he⟩ : ∃ e, e = 1073 := ⟨_, rfl⟩
  have hunits := units_power he 1024
  have hle : p * one ≤ units ((1022 + 1024) * 2 ^ 52) * 1 := by
    calc p * one ≤ 2 ^ 1023 * one := Nat.mul_le_mul_right one hp
      _ = 2 ^ (1023 + 1) * 2 ^ e := by rw [one_eq_two_mul he, pow_succ 2 1023, Nat.mul_assoc]
      _ = _ := by rw [hunits, Nat.mul_one]
  have hlimit : (1022 + 1024) * 2 ^ 52 < limit := by decide
  have hnearest := (nearestIndex_le Nat.one_pos hle).trans_lt hlimit
  rw [lt_eq_true_iff]
  refine ⟨_, _, place_ofNat p, rfl, ?_⟩
  simp only [Bool.false_eq_true, if_false]
  omega

/-! ## Whole numbers -/

theorem signed_mul (negative : Bool) (k n : Nat) : signed negative (k * n) = signed negative k * n := by
  cases negative <;> simp [signed]

theorem signed_natAbs (i : ℤ) : signed (decide (i < 0)) i.natAbs = i := by
  by_cases h : i < 0
  · rw [decide_eq_true h, signed, if_pos rfl]
    omega
  · rw [decide_eq_false h, signed, if_neg Bool.false_ne_true]
    omega

theorem exists_of_toRat?_int (h : x.toRat? = some (i : ℚ)) : ∃ (negative : Bool) (k : ℕ)
    (index : Fin limit), i = signed negative k ∧ x = finite negative index ∧
      units index = k * one := by
  obtain ⟨negative, index, rfl, hdiv⟩ := exists_finite h
  have hpos : (one : ℚ) ≠ 0 := by exact_mod_cast one_pos.ne'
  rw [div_eq_iff hpos] at hdiv
  have hsigned : signed negative (units index) = i * one := by exact_mod_cast hdiv
  have hunits := congrArg Int.natAbs hsigned
  rw [natAbs_signed, Int.natAbs_mul, Int.natAbs_natCast] at hunits
  refine ⟨negative, i.natAbs, index, ?_, rfl, hunits⟩
  rw [hunits, signed_mul] at hsigned
  exact (Int.eq_of_mul_eq_mul_right (by exact_mod_cast one_pos.ne') hsigned).symm

theorem toRat?_finite {negative : Bool} {index : Fin limit} (h : units index = k * one) :
    (finite negative index).toRat? = some ((signed negative k : ℤ) : ℚ) := by
  rw [toRat?, h, signed_mul_div negative k one_pos]

theorem exists_place (h : x.toRat? = some (i : ℚ)) (hi : |i| ≤ 2 ^ 53) : ∃ z, x.place = some z ∧
    ∀ p : ℕ, z ≤ (min (nearestIndex (p * one) 1) limit : ℕ) ↔ i ≤ p := by
  obtain ⟨negative, k, index, rfl, rfl, hunits⟩ := exists_of_toRat?_int h
  rw [Int.abs_eq_natAbs, natAbs_signed] at hi
  have hlimit := index.isLt
  refine ⟨_, rfl, fun p => ?_⟩
  have hiff := le_nearestIndex_iff (p := p) hunits (by exact_mod_cast hi)
  cases negative with
  | false =>
    simp only [signed, Bool.false_eq_true, if_false]
    omega
  | true =>
    simp only [signed, if_true]
    omega

/-- A whole number is compared with counts by its value. -/
theorem le_ofNat (h : x.toRat? = some (i : ℚ)) (hi : |i| ≤ 2 ^ 53) (p : Nat) :
    x.le (ofNat p) = decide (i ≤ p) := by
  obtain ⟨z, hplace, hz⟩ := exists_place h hi
  rw [le, hplace, place_ofNat]
  exact decide_eq_decide.mpr (hz p)

theorem ofNat_lt (h : x.toRat? = some (i : ℚ)) (hi : |i| ≤ 2 ^ 53) (p : Nat) :
    (ofNat p).lt x = decide ((p : ℤ) < i) := by
  obtain ⟨z, hplace, hz⟩ := exists_place h hi
  rw [lt, hplace, place_ofNat]
  exact decide_eq_decide.mpr (by rw [← not_le, hz p, not_le])

/-! ## Arithmetic -/

/-- Whole numbers are added exactly. -/
theorem toRat?_add (hx : x.toRat? = some (i : ℚ)) (hy : y.toRat? = some (j : ℚ))
    (hij : |i + j| ≤ 2 ^ 53) : (x.add y).toRat? = some ((i + j : ℤ) : ℚ) := by
  obtain ⟨s, k, a, rfl, rfl, ha⟩ := exists_of_toRat?_int hx
  obtain ⟨t, m, b, rfl, rfl, hb⟩ := exists_of_toRat?_int hy
  have htotal : signed s (units a) + signed t (units b) = (signed s k + signed t m) * one := by
    rw [ha, hb, signed_mul, signed_mul, Int.add_mul]
  generalize signed s k + signed t m = sum at hij htotal
  simp only [add, htotal]
  split
  · next hzero =>
    have hsum : sum = 0 :=
      (Int.mul_eq_zero.mp hzero).resolve_right (by exact_mod_cast one_pos.ne')
    rw [hsum, ofIndex, dif_pos (show 0 < limit by decide), toRat?_of_zero _ rfl, Int.cast_zero]
  · next hne =>
    rw [Int.abs_eq_natAbs] at hij
    obtain ⟨c, hc, hunits⟩ := exists_units_eq_mul_one (k := sum.natAbs) (by exact_mod_cast hij)
    rw [Int.natAbs_mul, Int.natAbs_natCast, ← hunits, ofUnits_units _ hc, toRat?_finite hunits]
    have hsign : signed (decide (sum * one < 0)) sum.natAbs = sum := by
      have hpos : (0 : ℤ) < one := by exact_mod_cast one_pos
      have hneg : sum * one < 0 ↔ sum < 0 := mul_neg_iff.trans (by omega)
      rw [decide_eq_decide.mpr hneg, signed_natAbs]
    rw [hsign]

/-- Whole numbers below `2 ^ 52` stay what they are. -/
theorem toRat?_round_int (h : x.toRat? = some (i : ℚ)) (hi : |i| ≤ 2 ^ 52) :
    x.round.toRat? = some (i : ℚ) := by
  have hnear : ¬ RoundsPast i := by
    rintro (hlast | ⟨n, hn, -, hlow, -⟩)
    · have hdouble : (2 ^ 54 * i : ℤ) = 2 ^ 53 - 1 := by
        have hcast : (2 ^ 54 * i : ℚ) = 2 ^ 53 - 1 := by linarith
        exact_mod_cast hcast
      omega
    · obtain rfl : i = n := by exact_mod_cast hn
      exact hi.not_gt hlow
  have hfloor : ⌊(i : ℚ) + 1 / 2⌋ = i := by
    rw [Int.floor_intCast_add, show ⌊(1 / 2 : ℚ)⌋ = 0 by norm_num, Int.add_zero]
  rw [(toRat?_round h).1 hnear, hfloor]

end XPath.Number
