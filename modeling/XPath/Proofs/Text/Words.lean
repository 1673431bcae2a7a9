import Mathlib.Data.List.TakeWhile
import Mathlib.Order.WellFounded
import XPath.Text.Blank
/-! Words between the characters of a class. Cutting a text at one of these characters cuts its
words apart, so that the words are the maximal runs of other characters. -/
namespace XPath.Text
set_option autoImplicit false

variable {cls : Char → Bool} {c : Char} {s t word before after : List Char}

/-- A maximal run of characters outside a class, with the ends of the text or characters of the
class on both sides. -/
structure IsWord (cls : Char → Bool) (s word : List Char) : Prop where
  ne_nil : word ≠ []
  outside : ∀ c ∈ word, cls c = false
  maximal : ∃ before after, s = before ++ word ++ after ∧
    (∀ c, before.getLast? = some c → cls c = true) ∧ ∀ c, after.head? = some c → cls c = true

theorem fields_eq_splitOnP (cls : Char → Bool) (s : List Char) : fields cls s = s.splitOnP cls := by
  induction s with
  | nil => rfl
  | cons c rest ih => rw [fields, ih, List.splitOnP_cons_eq_if_modifyHead]

theorem words_append_cons (hc : cls c = true) (s t : List Char) :
    words cls (s ++ c :: t) = words cls s ++ words cls t := by
  simp only [words, fields_eq_splitOnP, List.splitOnP_append_cons s t hc, List.filter_append]

theorem words_eq_singleton (hs : ∀ c ∈ s, cls c = false) (hne : s ≠ []) : words cls s = [s] := by
  rw [words, fields_eq_splitOnP, List.splitOnP_eq_singleton hs]
  simp [hne]

/-- Every text is one word or none, or is cut at the first character of the class. -/
theorem exists_cut (cls : Char → Bool) (s : List Char) : (∀ c ∈ s, cls c = false) ∨
    ∃ first c rest, s = first ++ c :: rest ∧ (∀ c ∈ first, cls c = false) ∧ cls c = true := by
  induction s with
  | nil => exact .inl fun c hc => absurd hc List.not_mem_nil
  | cons a s ih =>
    cases ha : cls a with
    | true => exact .inr ⟨[], a, s, rfl, fun c hc => absurd hc List.not_mem_nil, ha⟩
    | false =>
      rcases ih with hs | ⟨first, c, rest, rfl, hfirst, hc⟩
      · exact .inl (List.forall_mem_cons.mpr ⟨ha, hs⟩)
      · exact .inr ⟨a :: first, c, rest, rfl, List.forall_mem_cons.mpr ⟨ha, hfirst⟩, hc⟩

theorem isWord_self (hs : ∀ c ∈ s, cls c = false) (hne : s ≠ []) : IsWord cls s s :=
  ⟨hne, hs, [], [], by simp, by simp, by simp⟩

theorem IsWord.mem_words (h : IsWord cls s word) : word ∈ words cls s := by
  obtain ⟨before, after, rfl, hbefore, hafter⟩ := h.maximal
  have hafter' : word ∈ words cls (word ++ after) := by
    cases after with
    | nil => simp [words_eq_singleton h.outside h.ne_nil]
    | cons c after =>
      rw [words_append_cons (hafter c rfl), words_eq_singleton h.outside h.ne_nil]
      exact List.mem_append_left _ List.mem_cons_self
  rcases List.eq_nil_or_concat before with rfl | ⟨before, c, rfl⟩
  · exact hafter'
  · have hc := hbefore c (by simp)
    rw [List.append_assoc, List.concat_eq_append, List.append_assoc, List.singleton_append,
      words_append_cons hc]
    exact List.mem_append_right _ hafter'

theorem isWord_of_mem_words (h : word ∈ words cls s) : IsWord cls s word := by
  induction hn : s.length using Nat.strong_induction_on generalizing s with
  | h n ih =>
    rcases exists_cut cls s with hs | ⟨first, c, rest, rfl, hfirst, hc⟩
    · rcases eq_or_ne s [] with rfl | hne
      · exact absurd h List.not_mem_nil
      · rw [words_eq_singleton hs hne] at h
        obtain rfl := List.mem_singleton.mp h
        exact isWord_self hs hne
    · rw [words_append_cons hc, List.mem_append] at h
      rcases h with h | h
      · rcases eq_or_ne first [] with rfl | hne
        · exact absurd h List.not_mem_nil
        · rw [words_eq_singleton hfirst hne] at h
          obtain rfl := List.mem_singleton.mp h
          refine ⟨hne, hfirst, [], c :: rest, by simp, by simp, fun a ha => ?_⟩
          obtain rfl : c = a := Option.some.inj ha
          exact hc
      · obtain ⟨hne, hword, before, after, rfl, hbefore, hafter⟩ :=
          ih rest.length (by rw [← hn]; simp; omega) h rfl
        refine ⟨hne, hword, first ++ c :: before, after, by simp, fun a ha => ?_, hafter⟩
        cases before with
        | nil =>
          obtain rfl : c = a := by simpa using ha
          exact hc
        | cons b before => exact hbefore a (by simpa using ha)

theorem mem_words_iff : word ∈ words cls s ↔ IsWord cls s word :=
  ⟨isWord_of_mem_words, IsWord.mem_words⟩

/-! ## What stands around a text -/

theorem dropWhile_eq_self (hs : ∀ c ∈ s, cls c = false) : s.dropWhile cls = s := by
  refine List.dropWhile_eq_self_iff.mpr fun hpos => ?_
  simp [hs _ (List.getElem_mem hpos)]

theorem trim_eq_self (hs : ∀ c ∈ s, cls c = false) : trim cls s = s := by
  rw [trim, dropWhile_eq_self hs, dropWhile_eq_self fun c hc => hs c (List.mem_reverse.mp hc),
    List.reverse_reverse]

/-- What is left of a text stands between characters of the class. -/
theorem exists_trim (cls : Char → Bool) (s : List Char) : ∃ before after,
    s = before ++ trim cls s ++ after ∧ (∀ c ∈ before, cls c = true) ∧
      ∀ c ∈ after, cls c = true := by
  refine ⟨s.takeWhile cls, ((s.dropWhile cls).reverse.takeWhile cls).reverse, ?_, ?_, ?_⟩
  · rw [List.append_assoc, trim, ← List.reverse_append, List.takeWhile_append_dropWhile,
      List.reverse_reverse, List.takeWhile_append_dropWhile]
  · exact fun c hc => List.mem_takeWhile_imp hc
  · exact fun c hc => List.mem_takeWhile_imp (List.mem_reverse.mp hc)

theorem trim_append (hbefore : ∀ c ∈ before, cls c = true) (hs : ∀ c ∈ s, cls c = false)
    (hafter : ∀ c ∈ after, cls c = true) : trim cls (before ++ s ++ after) = s := by
  have hfront : (before ++ s ++ after).dropWhile cls = (s ++ after).dropWhile cls := by
    rw [List.append_assoc, List.dropWhile_append_of_pos hbefore]
  have hback : ((s ++ after).reverse.dropWhile cls).reverse = s := by
    rw [List.reverse_append, List.dropWhile_append_of_pos fun c hc =>
      hafter c (List.mem_reverse.mp hc), dropWhile_eq_self fun c hc =>
      hs c (List.mem_reverse.mp hc), List.reverse_reverse]
  rw [trim, hfront]
  cases s with
  | nil => rw [List.nil_append, List.dropWhile_eq_nil_iff.mpr hafter]; rfl
  | cons c s =>
    have hc : cls c = false := hs c List.mem_cons_self
    rwa [List.cons_append, List.dropWhile_cons_of_neg (by simp [hc]), ← List.cons_append]

end XPath.Text
