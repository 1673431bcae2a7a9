import Mathlib.Data.List.Basic
import XPath.Parser.Expr
/-! What a composed parser reads, in terms of its parts. Every combinator gets one equation for the
result of its reply; later proofs work with these and do not look into replies. How far a parser
reached does not matter here. -/
namespace XPath.Parser
set_option autoImplicit false

section
variable {α β : Type} {p q : Parser α} {f : α → Parser β} {g : α → β} {s mid rest : List Char}
  {v : α} {vs : List α}

/-! ## Sequence and choice -/

@[simp] theorem result_pure : ((pure v : Parser α) s).result = some (v, s) := rfl

@[simp] theorem result_bind :
    ((p >>= f) s).result = (p s).result.bind fun found => (f found.1 found.2).result := by
  show (Parser.bind p f s).result = _
  unfold Parser.bind
  cases h : (p s).result <;> simp [h]

theorem exists_of_bind {found : β × List Char} (h : ((p >>= f) s).result = some found) :
    ∃ v mid, (p s).result = some (v, mid) ∧ (f v mid).result = some found := by
  rw [result_bind] at h
  obtain ⟨⟨v, mid⟩, hv, h⟩ := Option.bind_eq_some_iff.mp h
  exact ⟨v, mid, hv, h⟩

@[simp] theorem result_map :
    ((g <$> p) s).result = (p s).result.map fun found => (g found.1, found.2) := by
  show ((p >>= fun a => pure (g a)) s).result = _
  rw [result_bind]
  cases (p s).result <;> rfl

@[simp] theorem result_orElse : ((p <|> q) s).result = (p s).result.or (q s).result := by
  show (Parser.orElse p q s).result = _
  unfold Parser.orElse
  cases h : (p s).result with
  | some found => simp [h]
  | none => cases h' : (q s).result <;> simp [h, h']

@[simp] theorem result_firstOf_nil : (firstOf ([] : List (Parser α)) s).result = none := rfl

@[simp] theorem result_firstOf_cons (choices : List (Parser α)) :
    (firstOf (p :: choices) s).result = (p s).result.or (firstOf choices s).result :=
  result_orElse

theorem exists_of_firstOf {choices : List (Parser α)} {found : α × List Char}
    (h : (firstOf choices s).result = some found) : ∃ p ∈ choices, (p s).result = some found := by
  induction choices with
  | nil => cases h
  | cons p choices ih =>
    rw [result_firstOf_cons, Option.or_eq_some_iff] at h
    rcases h with h | ⟨-, h⟩
    · exact ⟨p, List.mem_cons_self, h⟩
    · obtain ⟨q, hq, h⟩ := ih h
      exact ⟨q, List.mem_cons_of_mem _ hq, h⟩

theorem result_optional :
    (optional p s).result =
      some (match (p s).result with
        | some (value, rest) => (some value, rest)
        | none => (none, s)) := by
  unfold optional
  rw [result_orElse, result_map]
  cases (p s).result <;> rfl

theorem result_peek :
    (peek p s).result = (p s).result.map fun found => (found.1, s) := by
  unfold peek
  cases h : (p s).result <;> simp [h]

/-! ## Tokens -/

theorem result_takeWhile (cls : Char → Bool) :
    (takeWhile cls s).result = some (s.takeWhile cls, s.dropWhile cls) := rfl

theorem result_satisfy {cls : Char → Bool} {c : Char} :
    (satisfy cls s).result = some (c, rest) ↔ s = c :: rest ∧ cls c = true := by
  cases s with
  | nil => simp [satisfy]
  | cons d tail =>
    by_cases h : cls d <;> simp [satisfy, h]
    · rintro rfl rfl
      exact h
    · rintro rfl rfl
      simpa using h

theorem result_satisfy_none {cls : Char → Bool} :
    (satisfy cls s).result = none ↔ s.head?.any cls = false := by
  cases s with
  | nil => simp [satisfy]
  | cons c s => cases h : cls c <;> simp [satisfy, h]

theorem result_char {c d : Char} :
    (char c s).result = some (d, rest) ↔ s = c :: rest ∧ d = c := by
  unfold char
  rw [result_satisfy, beq_iff_eq]
  constructor
  · rintro ⟨rfl, rfl⟩
    exact ⟨rfl, rfl⟩
  · rintro ⟨rfl, rfl⟩
    exact ⟨rfl, rfl⟩

theorem result_word {text : String} {u : Unit} :
    (word text s).result = some (u, rest) ↔ s = text.toList ++ rest := by
  unfold word
  cases h : text.toList.isPrefixOf? s with
  | none =>
    refine iff_of_false (by simp) fun hs => ?_
    rw [List.isPrefixOf?_eq_some_iff_append_eq.mpr hs.symm] at h
    cases h
  | some after =>
    rw [List.isPrefixOf?_eq_some_iff_append_eq] at h
    simp [← h]

theorem result_wordNotBefore {text : String} {cls : Char → Bool} {u : Unit} :
    (wordNotBefore text cls s).result = some (u, rest) ↔
      s = text.toList ++ rest ∧ rest.head?.any cls = false := by
  unfold wordNotBefore
  cases h : text.toList.isPrefixOf? s with
  | none =>
    refine iff_of_false (by simp) fun hs => ?_
    rw [List.isPrefixOf?_eq_some_iff_append_eq.mpr hs.1.symm] at h
    cases h
  | some after =>
    rw [List.isPrefixOf?_eq_some_iff_append_eq] at h
    subst h
    rw [List.append_cancel_left_eq]
    dsimp only
    by_cases hafter : after.head?.any cls = true
    · rw [if_pos hafter]
      refine iff_of_false (by simp) ?_
      rintro ⟨rfl, hrest⟩
      exact Bool.false_ne_true (hrest.symm.trans hafter)
    · rw [if_neg hafter]
      constructor
      · intro heq
        obtain ⟨-, rfl⟩ := Prod.mk.inj (Option.some.inj heq)
        exact ⟨rfl, Bool.eq_false_iff.mpr hafter⟩
      · rintro ⟨rfl, -⟩
        rfl

/-! ## Repetition -/

/-- The parser reads these values one after another, and takes something for each of them. -/
inductive Repeats (p : Parser α) : List Char → List α → List Char → Prop
  | stop {s : List Char} : Repeats p s [] s
  | next {s mid rest : List Char} {v : α} {vs : List α} :
    (p s).result = some (v, mid) → (p s).taken ≠ 0 → Repeats p mid vs rest →
    Repeats p s (v :: vs) rest

theorem repeats_of_manyWithin {count : Nat} (h : (manyWithin p count s).result = some (vs, rest)) :
    Repeats p s vs rest := by
  induction count generalizing s vs with
  | zero =>
    obtain ⟨rfl, rfl⟩ := Prod.mk.inj (Option.some.inj h)
    exact .stop
  | succ count ih =>
    unfold manyWithin at h
    dsimp only at h
    split at h
    · next v mid hfirst =>
      split at h
      · obtain ⟨rfl, rfl⟩ := Prod.mk.inj (Option.some.inj h)
        exact .stop
      · next htaken =>
        obtain ⟨⟨more, final⟩, hmore, heq⟩ := Option.map_eq_some_iff.mp h
        obtain ⟨rfl, rfl⟩ := Prod.mk.inj heq
        exact .next hfirst htaken (ih hmore)
    · obtain ⟨rfl, rfl⟩ := Prod.mk.inj (Option.some.inj h)
      exact .stop

theorem repeats_of_many (h : (many p s).result = some (vs, rest)) : Repeats p s vs rest :=
  repeats_of_manyWithin h

end
end XPath.Parser
