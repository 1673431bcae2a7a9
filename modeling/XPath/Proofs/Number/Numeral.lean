import Mathlib.Data.List.TakeWhile
import XPath.Number.Numeral
/-! Which texts are numerals: digits, or digits around a point with at least one digit on either
side of it. -/
namespace XPath.Number
set_option autoImplicit false

variable {w whole fraction : List Char}

/-- A run of a class and what follows it, where that does not begin with a member of the class. -/
theorem span_append {cls : Char → Bool} {rest : List Char} (h : ∀ c ∈ w, cls c = true)
    (hrest : rest.head?.any cls = false) :
    (w ++ rest).takeWhile cls = w ∧ (w ++ rest).dropWhile cls = rest := by
  rw [List.takeWhile_append_of_pos h, List.dropWhile_append_of_pos h]
  cases rest with
  | nil => simp
  | cons c rest =>
    have hc : cls c = false := by simpa using hrest
    simp [hc]

theorem numeral?_eq_some_iff :
    numeral? w = some (whole, fraction) ↔
      (∀ c ∈ whole ++ fraction, c.isDigit = true) ∧ whole ++ fraction ≠ [] ∧
        (w = whole ∧ fraction = [] ∨ w = whole ++ '.' :: fraction) := by
  constructor
  · intro h
    have hsplit := List.takeWhile_append_dropWhile (p := Char.isDigit) (l := w)
    have hdigits : ∀ c ∈ w.takeWhile Char.isDigit, c.isDigit = true :=
      fun c hc => List.mem_takeWhile_imp hc
    unfold numeral? at h
    split at h
    · next hrest =>
      dsimp only at h
      split at h
      · cases h
      · next hne =>
        obtain ⟨rfl, rfl⟩ := Prod.mk.inj (Option.some.inj h)
        rw [hrest, List.append_nil] at hsplit
        exact ⟨by simpa using hdigits, by simpa using hne, Or.inl ⟨hsplit.symm, rfl⟩⟩
    · next rest hrest =>
      dsimp only at h
      split at h
      · next hcond =>
        obtain ⟨rfl, rfl⟩ := Prod.mk.inj (Option.some.inj h)
        rw [hrest] at hsplit
        simp only [Bool.and_eq_true, List.all_eq_true, Bool.not_eq_true',
          List.isEmpty_eq_false_iff] at hcond
        refine ⟨fun c hc => ?_, hcond.2, Or.inr hsplit.symm⟩
        exact (List.mem_append.mp hc).elim (hdigits c) (hcond.1 c)
      · cases h
    · cases h
  · rintro ⟨hdigits, hne, hw⟩
    have hwhole : ∀ c ∈ whole, c.isDigit = true := fun c hc => hdigits c (by simp [hc])
    have hfraction : ∀ c ∈ fraction, c.isDigit = true := fun c hc => hdigits c (by simp [hc])
    rcases hw with ⟨rfl, rfl⟩ | rfl
    · obtain ⟨htake, hdrop⟩ := @span_append _ Char.isDigit [] hwhole rfl
      rw [List.append_nil] at htake hdrop hne
      simp [numeral?, htake, hdrop, hne]
    · obtain ⟨htake, hdrop⟩ := @span_append whole Char.isDigit ('.' :: fraction) hwhole rfl
      have hcond : (fraction.all Char.isDigit && !(whole ++ fraction).isEmpty) = true := by
        simp only [Bool.and_eq_true, List.all_eq_true, Bool.not_eq_true',
          List.isEmpty_eq_false_iff]
        exact ⟨hfraction, hne⟩
      simp only [numeral?, htake, hdrop]
      rw [if_pos hcond]

end XPath.Number
