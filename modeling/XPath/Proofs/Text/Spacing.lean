import XPath.Eval.Core
import XPath.Proofs.Text.Words
/-! Blanks between words. What `normalize-space` makes of a text holds the same runs of other characters
in the same order, with one space between neighbours and no other blank; so there is nothing left to do
for a second application. -/
namespace XPath
set_option autoImplicit false

namespace Text

variable {cls : Char → Bool} {c : Char} {s word : List Char} {ws : List (List Char)}

/-! ## Runs in order -/

/-- The maximal runs of characters outside a class, from the front of a text on: a character of the
class is skipped, and a run goes on up to the next such character or to the end. -/
inductive Runs (cls : Char → Bool) : List Char → List (List Char) → Prop
  | nil : Runs cls [] []
  | skip {c : Char} {s : List Char} {ws : List (List Char)} :
    cls c = true → Runs cls s ws → Runs cls (c :: s) ws
  | run {word s : List Char} {ws : List (List Char)} :
    word ≠ [] → (∀ c ∈ word, cls c = false) → (∀ c, s.head? = some c → cls c = true) →
    Runs cls s ws → Runs cls (word ++ s) (word :: ws)

theorem words_cons (hc : cls c = true) (s : List Char) : words cls (c :: s) = words cls s :=
  words_append_cons hc [] s

theorem words_append (hne : word ≠ []) (hword : ∀ c ∈ word, cls c = false)
    (hs : ∀ c, s.head? = some c → cls c = true) :
    words cls (word ++ s) = word :: words cls s := by
  cases s with
  | nil =>
    rw [List.append_nil, words_eq_singleton hword hne]
    rfl
  | cons c s =>
    have hc := hs c rfl
    rw [words_append_cons hc, words_eq_singleton hword hne, words_cons hc]
    rfl

theorem Runs.words_eq (h : Runs cls s ws) : words cls s = ws := by
  induction h with
  | nil => rfl
  | skip hc _ ih => rw [words_cons hc, ih]
  | run hne hword hs _ ih => rw [words_append hne hword hs, ih]

/-- The words of a text are its runs. -/
theorem runs_words (cls : Char → Bool) (s : List Char) : Runs cls s (words cls s) := by
  -- What stands behind the first character of the class is a shorter text.
  induction hn : s.length using Nat.strong_induction_on generalizing s with
  | h n ih =>
    rcases exists_cut cls s with hs | ⟨first, c, rest, rfl, hfirst, hc⟩
    · rcases eq_or_ne s [] with rfl | hne
      · exact .nil
      · have hrun : Runs cls (s ++ []) [s] := .run hne hs (by simp) .nil
        rwa [List.append_nil, ← words_eq_singleton hs hne] at hrun
    · have hrest : Runs cls (c :: rest) (words cls (c :: rest)) := by
        rw [words_cons hc]
        exact .skip hc (ih rest.length (by rw [← hn]; simp; omega) rest rfl)
      rcases eq_or_ne first [] with rfl | hne
      · exact hrest
      · have hend : ∀ a, (c :: rest).head? = some a → cls a = true := fun a ha =>
          Option.some.inj ha ▸ hc
        rw [words_append hne hfirst hend]
        exact .run hne hfirst hend hrest

theorem runs_iff : Runs cls s ws ↔ ws = words cls s :=
  ⟨fun h => h.words_eq.symm, fun h => h ▸ runs_words cls s⟩

/-- The runs hold all characters outside the class, in their order. -/
theorem flatten_words (cls : Char → Bool) (s : List Char) :
    (words cls s).flatten = s.filter (! cls ·) := by
  have hruns := runs_words cls s
  generalize words cls s = ws at hruns
  induction hruns with
  | nil => rfl
  | skip hc _ ih => simp [hc, ih]
  | @run word s ws _ hword _ _ ih =>
    have hall : word.filter (! cls ·) = word :=
      List.filter_eq_self.mpr fun c hc => by simp [hword c hc]
    rw [List.flatten_cons, List.filter_append, hall, ih]

/-! ## Words with a character between them -/

/-- A list of non-empty texts without characters of a class. -/
def AreWords (cls : Char → Bool) (ws : List (List Char)) : Prop :=
  ∀ word ∈ ws, word ≠ [] ∧ ∀ c ∈ word, cls c = false

theorem areWords_words (cls : Char → Bool) (s : List Char) : AreWords cls (words cls s) :=
  fun _ hmem => ⟨(mem_words_iff.mp hmem).ne_nil, (mem_words_iff.mp hmem).outside⟩

theorem AreWords.tail (h : AreWords cls (word :: ws)) : AreWords cls ws :=
  fun w hw => h w (List.mem_cons_of_mem _ hw)

/-- Words are told apart again by any character of the class between them. -/
theorem words_intercalate (hc : cls c = true) (h : AreWords cls ws) :
    words cls ([c].intercalate ws) = ws := by
  induction ws with
  | nil => rfl
  | cons word ws ih =>
    obtain ⟨hne, hword⟩ := h word List.mem_cons_self
    cases ws with
    | nil => rw [List.intercalate_singleton, words_eq_singleton hword hne]
    | cons next ws =>
      rw [List.intercalate_cons_cons, List.append_assoc, List.singleton_append,
        words_append_cons hc, words_eq_singleton hword hne, ih h.tail]
      rfl

theorem intercalate_ne_nil (h : AreWords cls (word :: ws)) (c : Char) :
    [c].intercalate (word :: ws) ≠ [] := by
  obtain ⟨hne, -⟩ := h word List.mem_cons_self
  cases ws with
  | nil => rwa [List.intercalate_singleton]
  | cons next ws => simp [List.intercalate_cons_cons]

/-! ## Single spaces -/

/-- A text with no blank but single spaces inside. -/
structure SingleSpaced (s : List Char) : Prop where
  only_spaces : ∀ c ∈ s, c ≠ '\t' ∧ c ≠ '\r' ∧ c ≠ '\n'
  head_ne : s.head? ≠ some ' '
  getLast_ne : s.getLast? ≠ some ' '
  not_adjacent : ∀ before after, s ≠ before ++ ' ' :: ' ' :: after

theorem ne_of_not_isBlank (h : isBlank c = false) :
    c ≠ ' ' ∧ c ≠ '\t' ∧ c ≠ '\r' ∧ c ≠ '\n' := by
  simpa [isBlank, and_assoc] using h

theorem singleSpaced_of_not_isBlank (h : ∀ c ∈ s, isBlank c = false) : SingleSpaced s where
  only_spaces c hc := (ne_of_not_isBlank (h c hc)).2
  head_ne hhead := (ne_of_not_isBlank (h ' ' (List.mem_of_mem_head? hhead))).1 rfl
  getLast_ne hlast := (ne_of_not_isBlank (h ' ' (List.mem_of_mem_getLast? hlast))).1 rfl
  not_adjacent before after hs := by
    have hspace : ' ' ∈ s := by simp [hs]
    exact (ne_of_not_isBlank (h ' ' hspace)).1 rfl

/-- A word and a space may stand in front of a text with something in it. -/
theorem SingleSpaced.append (hs : SingleSpaced s) (hne : s ≠ []) (hword : word ≠ [])
    (hblank : ∀ c ∈ word, isBlank c = false) : SingleSpaced (word ++ ' ' :: s) where
  only_spaces c hc := by
    rw [List.mem_append, List.mem_cons] at hc
    rcases hc with hc | rfl | hc
    · exact (ne_of_not_isBlank (hblank c hc)).2
    · decide
    · exact hs.only_spaces c hc
  head_ne := by
    obtain ⟨a, rest, rfl⟩ := List.exists_cons_of_ne_nil hword
    exact (singleSpaced_of_not_isBlank hblank).head_ne
  getLast_ne := by
    obtain ⟨a, rest, rfl⟩ := List.exists_cons_of_ne_nil hne
    simpa [List.getLast?_append] using hs.getLast_ne
  not_adjacent before after h := by
    -- The first of two adjacent spaces would be in the word, between it and the text, or in the text.
    rcases List.append_eq_append_iff.mp h with ⟨more, rfl, hmore⟩ | ⟨more, rfl, hmore⟩
    · cases more with
      | nil => exact hs.head_ne (congrArg List.head? (List.cons.inj hmore).2)
      | cons a more => exact hs.not_adjacent more after (List.cons.inj hmore).2
    · cases more with
      | nil => exact hs.head_ne (congrArg List.head? (List.cons.inj hmore).2.symm)
      | cons a more =>
        obtain rfl := (List.cons.inj hmore).1
        exact (ne_of_not_isBlank (hblank ' ' (by simp))).1 rfl

theorem singleSpaced_intercalate (h : AreWords isBlank ws) :
    SingleSpaced ([' '].intercalate ws) := by
  induction ws with
  | nil => exact singleSpaced_of_not_isBlank (by simp)
  | cons word ws ih =>
    obtain ⟨hne, hword⟩ := h word List.mem_cons_self
    cases ws with
    | nil =>
      rw [List.intercalate_singleton]
      exact singleSpaced_of_not_isBlank hword
    | cons next ws =>
      rw [List.intercalate_cons_cons, List.append_assoc, List.singleton_append]
      exact (ih h.tail).append (intercalate_ne_nil h.tail ' ') hne hword

/-! ## The normalized text -/

theorem words_normalizeSpace (s : List Char) :
    words isBlank (normalizeSpace s) = words isBlank s :=
  words_intercalate rfl (areWords_words isBlank s)

theorem normalizeSpace_normalizeSpace (s : List Char) :
    normalizeSpace (normalizeSpace s) = normalizeSpace s := by
  rw [normalizeSpace, words_normalizeSpace, ← normalizeSpace]

end Text

/-- `normalize-space` leaves the runs of characters other than blanks as they are, in their order, and
puts a single space between neighbours: no other blank is left, at the ends none at all. All other
characters are kept, other white space among them, and a second application changes nothing. -/
theorem blanks_normalized (scope : Scope) (focus : Focus) (u : Value) :
    let s := (u.toText scope.document).toList
    ∃ (t : String) (runs : List (List Char)),
      CoreFunction.normalizeSpace.apply scope focus [u] = .ok (.string t) ∧
      Text.SingleSpaced t.toList ∧
      (∀ ws, Text.Runs Text.isBlank s ws ↔ ws = runs) ∧
      (∀ ws, Text.Runs Text.isBlank t.toList ws ↔ ws = runs) ∧
      t.toList.filter (! Text.isBlank ·) = s.filter (! Text.isBlank ·) ∧
      CoreFunction.normalizeSpace.apply scope focus [.string t] = .ok (.string t) := by
  intro s
  have hwords := Text.words_normalizeSpace s
  refine ⟨String.ofList (Text.normalizeSpace s), Text.words Text.isBlank s, rfl, ?_,
    fun ws => Text.runs_iff, fun ws => ?_, ?_, ?_⟩
  · rw [String.toList_ofList]
    exact Text.singleSpaced_intercalate (Text.areWords_words Text.isBlank s)
  · rw [String.toList_ofList, Text.runs_iff, hwords]
  · rw [String.toList_ofList, ← Text.flatten_words, ← Text.flatten_words, hwords]
  · show Except.ok (CoreFunction.normalizeText (String.ofList (Text.normalizeSpace s))) = _
    rw [CoreFunction.normalizeText, String.toList_ofList, Text.normalizeSpace_normalizeSpace]

/-- A no-break space is a word of its own. -/
theorem blanks_normalized_of_no_break_space :
    let scope := Scope.startingAt .empty Document.root .core (fun _ => none) none
    CoreFunction.normalizeSpace.apply scope (.on Document.root) [.string "\r\u00a0\t\n b c "] =
        .ok (.string "\u00a0 b c") ∧
      Text.Runs Text.isBlank "\r\u00a0\t\n b c ".toList [['\u00a0'], ['b'], ['c']] ∧
      Text.SingleSpaced "\u00a0 b c".toList := by
  intro scope
  have happly : CoreFunction.normalizeSpace.apply scope (.on Document.root)
      [.string "\r\u00a0\t\n b c "] = .ok (.string "\u00a0 b c") := by decide
  obtain ⟨t, runs, ht, hspaced, hbefore, hafter, -⟩ :=
    blanks_normalized scope (.on Document.root) (.string "\r\u00a0\t\n b c ")
  obtain rfl : "\u00a0 b c" = t := Value.string.inj (Except.ok.inj (happly.symm.trans ht))
  have hruns : Text.Runs Text.isBlank "\u00a0 b c".toList [['\u00a0'], ['b'], ['c']] :=
    Text.runs_iff.mpr (by decide)
  exact ⟨happly, (hbefore _).mpr ((hafter _).mp hruns), hspaced⟩

end XPath
