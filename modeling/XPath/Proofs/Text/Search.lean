import Mathlib.Data.List.Basic
import XPath.Eval.Core
/-! Finding one text in another. The cut at the first occurrence is a cut, and what stands before it
begins every text that stands before an occurrence. The four search functions read this one cut, so
they agree with one another. -/
namespace XPath
set_option autoImplicit false

namespace Text

variable {needle s before after x y : List Char}

/-! ## The first occurrence -/

theorem eq_of_splitAtFirst? (h : splitAtFirst? needle s = some (before, after)) :
    s = before ++ needle ++ after := by
  fun_induction splitAtFirst? needle s generalizing before with
  | case1 =>
    obtain ⟨rfl, rfl⟩ := Prod.mk.inj (Option.some.inj h)
    simp_all
  | case2 => cases h
  | case3 c rest hbegins =>
    obtain ⟨rfl, rfl⟩ := Prod.mk.inj (Option.some.inj h)
    obtain ⟨after, hafter⟩ := List.isPrefixOf_iff_prefix.mp hbegins
    rw [← hafter, List.drop_left, List.nil_append]
  | case4 c rest hbegins ih =>
    obtain ⟨⟨before', after'⟩, hrest, heq⟩ := Option.map_eq_some_iff.mp h
    obtain ⟨rfl, rfl⟩ := Prod.mk.inj heq
    rw [ih hrest, List.cons_append, List.cons_append]

/-- Wherever the needle stands, the first occurrence is not behind it. -/
theorem exists_splitAtFirst? (h : s = x ++ needle ++ y) :
    ∃ before after more, splitAtFirst? needle s = some (before, after) ∧ x = before ++ more := by
  fun_induction splitAtFirst? needle s generalizing x with
  | case1 => exact ⟨[], [], x, rfl, rfl⟩
  | case2 hne =>
    have hnil := List.append_eq_nil_iff.mp h.symm
    exact absurd (List.append_eq_nil_iff.mp hnil.1).2 hne
  | case3 c rest hbegins => exact ⟨[], _, x, rfl, rfl⟩
  | case4 c rest hbegins ih =>
    cases x with
    | nil =>
      have hbegin : needle <+: c :: rest := ⟨y, h.symm⟩
      exact absurd (List.isPrefixOf_iff_prefix.mpr hbegin) hbegins
    | cons a x =>
      obtain ⟨rfl, hrest⟩ := List.cons.inj h
      obtain ⟨before, after, more, hfound, rfl⟩ := ih hrest
      exact ⟨c :: before, after, more, by rw [hfound]; rfl, rfl⟩

/-! ## The search functions -/

section
variable {a b : String}

theorem contains_iff : contains a b = true ↔ ∃ x y : String, a = x ++ b ++ y := by
  unfold contains
  constructor
  · intro h
    obtain ⟨⟨before, after⟩, hfound⟩ := Option.isSome_iff_exists.mp h
    refine ⟨String.ofList before, String.ofList after, String.toList_inj.mp ?_⟩
    simpa using eq_of_splitAtFirst? hfound
  · rintro ⟨x, y, rfl⟩
    obtain ⟨before, after, more, hfound, -⟩ :=
      @exists_splitAtFirst? b.toList (x ++ b ++ y).toList x.toList y.toList (by simp)
    rw [hfound]
    rfl

theorem substringBefore_append (h : contains a b = true) :
    substringBefore a b ++ b ++ substringAfter a b = a := by
  obtain ⟨⟨before, after⟩, hfound⟩ := Option.isSome_iff_exists.mp h
  refine String.toList_inj.mp ?_
  simpa [substringBefore, substringAfter, hfound] using (eq_of_splitAtFirst? hfound).symm

theorem exists_eq_substringBefore_append {x y : String} (h : a = x ++ b ++ y) :
    ∃ more, x = substringBefore a b ++ more := by
  obtain ⟨before, after, more, hfound, hx⟩ :=
    @exists_splitAtFirst? b.toList a.toList x.toList y.toList (by simp [h])
  refine ⟨String.ofList more, String.toList_inj.mp ?_⟩
  simpa [substringBefore, hfound] using hx

theorem substrings_eq_empty (h : contains a b = false) :
    substringBefore a b = "" ∧ substringAfter a b = "" := by
  have hnone : splitAtFirst? b.toList a.toList = none := by simpa [contains] using h
  simp [substringBefore, substringAfter, hnone]

/-- An occurrence at the beginning is the first one. -/
theorem startsWith_iff :
    startsWith a b = true ↔ contains a b = true ∧ substringBefore a b = "" := by
  constructor
  · intro h
    obtain ⟨after, hafter⟩ := List.isPrefixOf_iff_prefix.mp h
    have ha : a = "" ++ b ++ String.ofList after := String.toList_inj.mp (by simp [← hafter])
    obtain ⟨more, hmore⟩ := exists_eq_substringBefore_append ha
    exact ⟨contains_iff.mpr ⟨_, _, ha⟩, (String.append_eq_empty_iff.mp hmore.symm).1⟩
  · rintro ⟨hcontains, hempty⟩
    have ha := substringBefore_append hcontains
    rw [hempty, String.empty_append] at ha
    refine List.isPrefixOf_iff_prefix.mpr ⟨(substringAfter a b).toList, ?_⟩
    rw [← String.toList_append, ha]

end
end Text

/-- The four search functions go back to one cut. A text contains another just if it is the other
with something on both sides; then `substring-before` begins whatever stands before an occurrence,
hence is the shortest, and the three parts make up the text. Otherwise both parts are empty. A text
starts with another just if it contains it with nothing before. -/
theorem searches_cohere (scope : Scope) (focus : Focus) (u v : Value) :
    let a := u.toText scope.document
    let b := v.toText scope.document
    ∃ (found starts : Bool) (before after : String),
      CoreFunction.contains.apply scope focus [u, v] = .ok (.boolean found) ∧
      CoreFunction.startsWith.apply scope focus [u, v] = .ok (.boolean starts) ∧
      CoreFunction.substringBefore.apply scope focus [u, v] = .ok (.string before) ∧
      CoreFunction.substringAfter.apply scope focus [u, v] = .ok (.string after) ∧
      (found = true ↔ ∃ x y, a = x ++ b ++ y) ∧
      (found = true → before ++ b ++ after = a ∧
        ∀ x y, a = x ++ b ++ y → before.length ≤ x.length ∧ ∃ more, x = before ++ more) ∧
      (found = false → before = "" ∧ after = "") ∧
      (starts = true ↔ found = true ∧ before = "") := by
  refine ⟨_, _, _, _, rfl, rfl, rfl, rfl, Text.contains_iff, fun hfound => ?_,
    Text.substrings_eq_empty, Text.startsWith_iff⟩
  refine ⟨Text.substringBefore_append hfound, fun x y h => ?_⟩
  obtain ⟨more, hmore⟩ := Text.exists_eq_substringBefore_append h
  refine ⟨?_, more, hmore⟩
  rw [hmore, String.length_append]
  exact Nat.le_add_right _ _

/-- The needle stands twice, the second time over the end of the first: the first one counts. -/
theorem searches_cohere_of_overlap :
    let scope := Scope.startingAt .empty Document.root .core (fun _ => none) none
    let args := [Value.string "éxéxé", .string "éxé"]
    "éxéxé" = "éx" ++ "éxé" ++ "" ∧
      CoreFunction.contains.apply scope (.on Document.root) args = .ok (.boolean true) ∧
      CoreFunction.startsWith.apply scope (.on Document.root) args = .ok (.boolean true) ∧
      CoreFunction.substringBefore.apply scope (.on Document.root) args = .ok (.string "") ∧
      CoreFunction.substringAfter.apply scope (.on Document.root) args = .ok (.string "xé") := by
  intro scope args
  obtain ⟨found, starts, before, after, hcontains, hstarts, hbefore, hafter, hfound, hparts, -,
    hstart⟩ := searches_cohere scope (.on Document.root) (.string "éxéxé") (.string "éxé")
  obtain rfl : found = true := hfound.mpr ⟨"éx", "", by decide⟩
  obtain ⟨happend, hfirst⟩ := hparts rfl
  obtain ⟨-, more, hmore⟩ := hfirst "" "xé" (by decide)
  obtain rfl : before = "" := (String.append_eq_empty_iff.mp hmore.symm).1
  obtain rfl : starts = true := hstart.mpr ⟨rfl, rfl⟩
  obtain rfl : after = "xé" := by
    have hwhole : "" ++ "éxé" ++ after = "éxéxé" := happend
    exact String.toList_inj.mp (by simpa using congrArg String.toList hwhole)
  exact ⟨by decide, hcontains, hstarts, hbefore, hafter⟩

end XPath
