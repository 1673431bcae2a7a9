import XPath.Eval.Core
import XPath.Proofs.Number.Order
/-! Cutting a block out of a text. Positions grow along the text, so the ones that have reached the
lower bound are not left again and the ones behind the upper bound stay behind it, whatever numbers the
bounds are. Where both bounds are whole numbers the block begins and ends at these very positions. -/
namespace XPath
set_option autoImplicit false

namespace Text

variable {low high : Number} {s : List Char} {p : Nat} {i j : ℤ}

/-! ## One block -/

/-- Behind the upper bound nothing is selected any more. -/
theorem sliceFrom_eq_nil (h : (Number.ofNat p).lt high = false) : sliceFrom low high p s = [] := by
  induction s generalizing p with
  | nil => rfl
  | cons c s ih =>
    have hnext : (Number.ofNat (p + 1)).lt high = false := by
      refine Bool.eq_false_iff.mpr fun hlt => Bool.eq_false_iff.mp h ?_
      exact Number.lt_of_le_of_lt (Number.ofNat_le_ofNat (Nat.le_succ p)) hlt
    simp [sliceFrom, h, ih hnext]

/-- From the lower bound on, the selected characters are the first ones. -/
theorem sliceFrom_isPrefix (h : low.le (Number.ofNat p) = true) : sliceFrom low high p s <+: s := by
  induction s generalizing p with
  | nil => exact List.prefix_rfl
  | cons c s ih =>
    have hnext := Number.le_trans h (Number.ofNat_le_ofNat (Nat.le_succ p))
    cases hhere : (Number.ofNat p).lt high with
    | false =>
      rw [sliceFrom_eq_nil hhere]
      exact List.nil_prefix
    | true =>
      simp only [sliceFrom, h, hhere, Bool.and_self, if_true]
      exact List.cons_prefix_cons.mpr ⟨rfl, ih hnext⟩

theorem sliceFrom_isInfix : sliceFrom low high p s <:+: s := by
  induction s generalizing p with
  | nil => exact List.infix_rfl
  | cons c s ih =>
    cases h : low.le (Number.ofNat p) with
    | false =>
      simp only [sliceFrom, h, Bool.false_and, Bool.false_eq_true, if_false]
      exact List.infix_cons ih
    | true => exact (sliceFrom_isPrefix h).isInfix

theorem exists_append_substring (s : String) (start : Number) (length : Option Number) :
    ∃ x y, s = x ++ substring s start length ++ y := by
  have hblock : (substring s start length).toList <:+: s.toList := by
    unfold substring
    rw [String.toList_ofList]
    exact sliceFrom_isInfix
  obtain ⟨x, y, h⟩ := hblock
  exact ⟨String.ofList x, String.ofList y, String.toList_inj.mp (by simp [h])⟩

/-! ## Whole bounds -/

theorem sliceFrom_eq_filter : sliceFrom low high p s = ((s.zipIdx p).filter fun c =>
      low.le (Number.ofNat c.2) && (Number.ofNat c.2).lt high).map Prod.fst := by
  induction s generalizing p with
  | nil => rfl
  | cons c s ih =>
    rw [List.zipIdx_cons, List.filter_cons, sliceFrom, ih]
    dsimp only
    split <;> rfl

/-- With bounds that tell the positions of the text from `p` on as `i` and `j` do, the block is cut at
these. -/
theorem sliceFrom_eq_drop (h : ∀ q, p ≤ q → q < p + s.length →
      low.le (Number.ofNat q) = decide (i ≤ q) ∧ (Number.ofNat q).lt high = decide ((q : ℤ) < j)) :
    sliceFrom low high p s = (s.take (j - p).toNat).drop (i - p).toNat := by
  induction s generalizing p with
  | nil => simp [sliceFrom]
  | cons c s ih =>
    rw [List.length_cons] at h
    obtain ⟨hlow, hhigh⟩ := h p le_rfl (by omega)
    have hmore := @ih (p + 1) fun q hle hlt => h q (by omega) (by omega)
    rw [Nat.cast_succ] at hmore
    rw [sliceFrom, hmore, hlow, hhigh]
    by_cases hj : (p : ℤ) < j
    · have htake : (j - p).toNat = (j - (p + 1)).toNat + 1 := by omega
      rw [htake, List.take_succ_cons]
      by_cases hi : i ≤ p
      · have hdrop : (i - p).toNat = 0 ∧ (i - (p + 1)).toNat = 0 := by omega
        simp [hi, hj, hdrop.1, hdrop.2]
      · have hdrop : (i - p).toNat = (i - (p + 1)).toNat + 1 := by omega
        simp [hi, hdrop]
    · have htake : (j - p).toNat = 0 ∧ (j - (p + 1)).toNat = 0 := by omega
      simp only [hj, decide_false, Bool.and_false, Bool.false_eq_true, if_false, htake.1, htake.2,
        List.take_zero, List.drop_nil]

/-- Between whole numbers the positions themselves decide. -/
theorem substring_eq_filter {start length : Number} {n : ℤ} (s : String)
    (hstart : start.toRat? = some (i : ℚ)) (hlength : length.toRat? = some (n : ℚ))
    (hi : |i| < 2 ^ 51) (hn : |n| < 2 ^ 51) :
    (substring s start (some length)).toList = ((s.toList.zipIdx 1).filter fun c =>
      decide (i ≤ c.2) && decide ((c.2 : ℤ) < i + n)).map Prod.fst := by
  rw [abs_lt] at hi hn
  have hlow := Number.toRat?_round_int hstart (abs_le.mpr (by omega))
  have hcount := Number.toRat?_round_int hlength (abs_le.mpr (by omega))
  have hhigh := Number.toRat?_add hlow hcount (abs_le.mpr (by omega))
  have hfirst : ∀ p, start.round.le (Number.ofNat p) = decide (i ≤ p) :=
    Number.le_ofNat hlow (abs_le.mpr (by omega))
  have hlast : ∀ p, (Number.ofNat p).lt (start.round.add length.round) = decide ((p : ℤ) < i + n) :=
    Number.ofNat_lt hhigh (abs_le.mpr (by omega))
  unfold substring
  dsimp only
  rw [String.toList_ofList, sliceFrom_eq_filter]
  simp only [hfirst, hlast]

/-- The first characters, as many as a whole number says. -/
theorem substring_one {start length : Number} {k : Nat} (s : String)
    (hstart : start.toRat? = some ((1 : ℤ) : ℚ)) (hlength : length.toRat? = some ((k : ℤ) : ℚ))
    (hk : k < 2 ^ 51) : substring s start (some length) = String.ofList (s.toList.take k) := by
  have hlow := Number.toRat?_round_int hstart (by decide)
  have hcount := Number.toRat?_round_int hlength (abs_le.mpr (by omega))
  have hhigh := Number.toRat?_add hlow hcount (abs_le.mpr (by omega))
  have hbounds := fun q => And.intro (Number.le_ofNat hlow (by decide) q)
    (Number.ofNat_lt hhigh (abs_le.mpr (by omega)) q)
  have htake : ((1 : ℤ) + k - (1 : ℕ)).toNat = k := by omega
  unfold substring
  dsimp only
  rw [sliceFrom_eq_drop fun q _ _ => hbounds q, htake]
  rfl

/-- All characters but the first ones. -/
theorem substring_succ {start : Number} {k : Nat} (s : String)
    (hstart : start.toRat? = some ((k + 1 : ℤ) : ℚ)) (hk : k < 2 ^ 51) (hs : s.length ≤ 2 ^ 1023) :
    substring s start none = String.ofList (s.toList.drop k) := by
  have hlow := Number.toRat?_round_int hstart (abs_le.mpr (by omega))
  have hbounds : ∀ q, 1 ≤ q → q < 1 + s.toList.length →
      start.round.le (Number.ofNat q) = decide ((k + 1 : ℤ) ≤ q) ∧
        (Number.ofNat q).lt (.infinite false) = decide ((q : ℤ) < s.toList.length + 1) := by
    intro q _ hlt
    refine ⟨Number.le_ofNat hlow (abs_le.mpr (by omega)) q, ?_⟩
    rw [decide_eq_true (show (q : ℤ) < s.toList.length + 1 by omega)]
    rw [String.length_toList] at hlt
    exact Number.ofNat_lt_infinite (by omega)
  have hdrop : ((k : ℤ) + 1 - (1 : ℕ)).toNat = k := by omega
  have htake : ((s.toList.length : ℤ) + 1 - (1 : ℕ)).toNat = s.toList.length := by omega
  unfold substring
  dsimp only
  rw [sliceFrom_eq_drop hbounds, hdrop, htake, List.take_length]

end Text

/-- `substring` cuts one block out of a text, whatever numbers tell the start and the length. Between
whole numbers it takes just the characters at the positions from the start on, as many as the length
says, positions counted from one. So the first `k` characters and those from position `k + 1` on make
up the text; for this the positions have to be finite numbers, as those of any text in a memory are. -/
theorem substring_cuts_block (scope : Scope) (focus : Focus) (u : Value) :
    let d := scope.document
    let s := u.toText d
    (∀ start length : Value, ∃ block rest : String,
      CoreFunction.substring.apply scope focus [u, start, length] = .ok (.string block) ∧
      CoreFunction.substring.apply scope focus [u, start] = .ok (.string rest) ∧
      (∃ x y, s = x ++ block ++ y) ∧ (∃ x y, s = x ++ rest ++ y) ∧
      ∀ i n : ℤ, (start.toNumber d).toRat? = some (i : ℚ) →
        (length.toNumber d).toRat? = some (n : ℚ) → |i| < 2 ^ 51 → |n| < 2 ^ 51 →
        block.toList = ((s.toList.zipIdx 1).filter fun c =>
          decide (i ≤ c.2) && decide ((c.2 : ℤ) < i + n)).map Prod.fst) ∧
    ∀ (k : ℕ) (one length next : Value), k < 2 ^ 51 → s.length ≤ 2 ^ 1023 →
      (one.toNumber d).toRat? = some ((1 : ℤ) : ℚ) →
      (length.toNumber d).toRat? = some ((k : ℤ) : ℚ) →
      (next.toNumber d).toRat? = some ((k + 1 : ℤ) : ℚ) →
      ∃ block rest : String,
        CoreFunction.substring.apply scope focus [u, one, length] = .ok (.string block) ∧
        CoreFunction.substring.apply scope focus [u, next] = .ok (.string rest) ∧
        block ++ rest = s := by
  intro d s
  refine ⟨fun start length => ⟨_, _, rfl, rfl, Text.exists_append_substring _ _ _,
    Text.exists_append_substring _ _ _, fun i n => Text.substring_eq_filter s⟩, ?_⟩
  intro k one length next hk hs hone hlength hnext
  refine ⟨_, _, rfl, rfl, ?_⟩
  rw [Text.substring_one _ hone hlength hk, Text.substring_succ _ hnext hk hs, ← String.ofList_append,
    List.take_append_drop, String.ofList_toList]

/-- The start lies before the text; only the positions in the text count. Numbers may be given as
texts. -/
theorem substring_cuts_block_before_start :
    let scope := Scope.startingAt .empty Document.root .core (fun _ => none) none
    CoreFunction.substring.apply scope (.on Document.root)
        [.string "aé😀d", .string "-1", .string "4"] = .ok (.string "aé") ∧
      ∃ block rest, CoreFunction.substring.apply scope (.on Document.root)
          [.string "aé😀d", .string "1", .string "2"] = .ok (.string block) ∧
        CoreFunction.substring.apply scope (.on Document.root) [.string "aé😀d", .string "3"] =
          .ok (.string rest) ∧ block ++ rest = "aé😀d" := by
  intro scope
  have hminus : (Number.parse "-1").toRat? = some ((-1 : ℤ) : ℚ) := by decide +kernel
  have hone : (Number.parse "1").toRat? = some ((1 : ℤ) : ℚ) := by decide +kernel
  have htwo : (Number.parse "2").toRat? = some (((2 : ℕ) : ℤ) : ℚ) := by decide +kernel
  have hthree : (Number.parse "3").toRat? = some (((2 : ℕ) + 1 : ℤ) : ℚ) := by decide +kernel
  have hfour : (Number.parse "4").toRat? = some ((4 : ℤ) : ℚ) := by decide +kernel
  obtain ⟨hblocks, hparts⟩ := substring_cuts_block scope (.on Document.root) (.string "aé😀d")
  obtain ⟨block, -, happly, -, -, -, hexact⟩ := hblocks (.string "-1") (.string "4")
  have hblock : block.toList = "aé".toList :=
    (hexact (-1) 4 hminus hfour (by decide) (by decide)).trans (by decide)
  rw [String.toList_inj.mp hblock] at happly
  have hlength : "aé😀d".length ≤ 2 ^ 1023 := by decide +kernel
  exact ⟨happly, hparts 2 (.string "1") (.string "2") (.string "3") (by decide) hlength hone htwo
    hthree⟩

end XPath
