import XPath.Proofs.Parser.Closure
/-! How much a parser takes. What a parser leaves is the text without the characters that it counts
as taken, so one that takes something leaves less. Hence a repetition is never cut short by its
bound: it goes on until its parser is stuck. -/
namespace XPath.Parser
set_option autoImplicit false

section
variable {α β : Type} {p q : Parser α} {f : α → Parser β} {s rest : List Char} {v : α}

/-! ## Combinators -/

/-- The rest is the text from behind the characters that were taken. -/
def Counts (p : Parser α) : Prop :=
  ∀ s v rest, (p s).result = some (v, rest) → (p s).taken ≤ s.length ∧ rest = s.drop (p s).taken

theorem Counts.pure : Counts (pure v) := by
  rintro s _ rest ⟨⟩
  exact ⟨Nat.zero_le _, rfl⟩

theorem Counts.fail : Counts (fail : Parser α) := by
  rintro s v rest ⟨⟩

theorem Counts.bind (hp : Counts p) (hf : ∀ v, Counts (f v)) : Counts (p >>= f) := by
  intro s w rest h
  obtain ⟨v, mid, hv, hw⟩ := exists_of_bind h
  obtain ⟨hle, rfl⟩ := hp s v mid hv
  obtain ⟨hle', rfl⟩ := hf v _ w rest hw
  rw [taken_bind hv]
  rw [List.length_drop] at hle'
  dsimp only at hle' ⊢
  exact ⟨by omega, by rw [List.drop_drop]⟩

theorem Counts.orElse (hp : Counts p) (hq : Counts q) : Counts (p <|> q) := by
  intro s v rest h
  have htaken : ((p <|> q) s).taken =
      if (p s).result.isSome then (p s).taken else (q s).taken := by
    show (Parser.orElse p q s).taken = _
    rw [result_orElse, Option.or_eq_some_iff] at h
    unfold Parser.orElse
    rcases h with h | ⟨hnone, h⟩
    · simp [h]
    · simp [hnone, h]
  rw [htaken]
  rw [result_orElse, Option.or_eq_some_iff] at h
  rcases h with h | ⟨hnone, h⟩
  · rw [h]
    exact hp s v rest h
  · rw [hnone]
    exact hq s v rest h

theorem Counts.peek : Counts (peek p) := by
  intro s v rest h
  unfold Parser.peek at h ⊢
  dsimp only at h ⊢
  split at h
  · obtain ⟨rfl, rfl⟩ := Prod.mk.inj (Option.some.inj h)
    exact ⟨Nat.zero_le _, rfl⟩
  · next hnone =>
    rw [hnone] at h
    cases h

theorem Counts.manyWithin (hp : Counts p) (count : Nat) : Counts (manyWithin p count) := by
  induction count with
  | zero => exact .pure
  | succ count ih =>
    intro s vs rest h
    have hstop : ∀ {r : Reply (List α)}, r = ⟨some ([], s), 0, r.reach⟩ →
        r.result = some (vs, rest) → r.taken ≤ s.length ∧ rest = s.drop r.taken := by
      intro r hr h
      rw [hr] at h ⊢
      obtain ⟨rfl, rfl⟩ := Prod.mk.inj (Option.some.inj h)
      exact ⟨Nat.zero_le _, rfl⟩
    cases hfirst : (p s).result with
    | none => exact hstop (by simp [Parser.manyWithin, hfirst]) h
    | some found =>
      by_cases htaken : (p s).taken = 0
      · exact hstop (by simp [Parser.manyWithin, hfirst, htaken]) h
      obtain ⟨hle, hmid⟩ := hp s found.1 found.2 hfirst
      simp only [Parser.manyWithin, hfirst, htaken, ↓reduceIte] at h ⊢
      obtain ⟨⟨more, final⟩, hmore, heq⟩ := Option.map_eq_some_iff.mp h
      obtain ⟨rfl, rfl⟩ := Prod.mk.inj heq
      obtain ⟨hle', hfinal⟩ := ih found.2 more final hmore
      rw [hmid, List.length_drop] at hle'
      refine ⟨by rw [hmid]; omega, ?_⟩
      rw [hfinal, hmid, List.drop_drop]

theorem Counts.many (hp : Counts p) : Counts (many p) :=
  fun s vs rest h => hp.manyWithin (s.length + 1) s vs rest h

/-! ## Tokens -/

theorem Counts.satisfy (cls : Char → Bool) : Counts (satisfy cls) := by
  intro s c rest h
  obtain ⟨rfl, hc⟩ := result_satisfy.mp h
  simp [Parser.satisfy, hc]

theorem Counts.takeWhile (cls : Char → Bool) : Counts (takeWhile cls) := by
  rintro s w rest ⟨⟩
  have hlength := congrArg List.length (List.takeWhile_append_dropWhile (p := cls) (l := s))
  have hdrop := @List.drop_left _ (s.takeWhile cls) (s.dropWhile cls)
  rw [List.takeWhile_append_dropWhile] at hdrop
  rw [List.length_append] at hlength
  exact ⟨by simp only [Parser.takeWhile]; omega, hdrop.symm⟩

theorem Counts.word (text : String) : Counts (word text) := by
  intro s u rest h
  obtain rfl := result_word.mp h
  have hbegins : text.toList.isPrefixOf? (text.toList ++ rest) = some rest :=
    List.isPrefixOf?_eq_some_iff_append_eq.mpr rfl
  unfold Parser.word
  rw [hbegins]
  simp [← String.length_toList]

theorem Counts.wordNotBefore (text : String) (cls : Char → Bool) :
    Counts (wordNotBefore text cls) := by
  intro s u rest h
  obtain ⟨rfl, hends⟩ := result_wordNotBefore.mp h
  have hbegins : text.toList.isPrefixOf? (text.toList ++ rest) = some rest :=
    List.isPrefixOf?_eq_some_iff_append_eq.mpr rfl
  unfold Parser.wordNotBefore
  simp [hbegins, hends, ← String.length_toList]

theorem counts_closed : Closed Counts where
  pure := .pure
  fail := .fail
  bind := .bind
  orElse := .orElse
  peek := fun _ => .peek
  many := .many
  satisfy := .satisfy
  takeWhile := .takeWhile
  word := .word
  wordNotBefore := .wordNotBefore

theorem Counts.char (c : Char) : Counts (char c) := .satisfy _

theorem Counts.spaced (hp : Counts p) : Counts (spaced p) := counts_closed.spaced hp

/-! ## Repetition -/

theorem Counts.length_lt (hp : Counts p) (htakes : Takes p) (h : (p s).result = some (v, rest)) :
    rest.length < s.length := by
  obtain ⟨hle, rfl⟩ := hp s v rest h
  have hne := htakes s _ h
  rw [List.length_drop]
  omega

theorem manyWithin_enough (hp : Counts p) (htakes : Takes p) {n m : Nat} (hn : s.length < n)
    (hm : s.length < m) : (manyWithin p n s).result = (manyWithin p m s).result := by
  induction n generalizing s m with
  | zero => exact absurd hn (Nat.not_lt_zero _)
  | succ n ih =>
    obtain ⟨m, rfl⟩ := Nat.exists_eq_succ_of_ne_zero (Nat.ne_of_gt (Nat.zero_lt_of_lt hm))
    cases hfirst : (p s).result with
    | none => simp [manyWithin, hfirst]
    | some found =>
      have hlt := hp.length_lt htakes hfirst
      have hmore := @ih found.2 m (by omega) (by omega)
      simp [manyWithin, hfirst, htakes s _ hfirst, hmore]

/-- A repetition reads once and then goes on as itself, as long as its parser is not stuck. -/
theorem result_many_step (hp : Counts p) (htakes : Takes p) (h : (p s).result = some (v, rest)) :
    (many p s).result = (many p rest).result.map fun found => (v :: found.1, found.2) := by
  have hmore := @manyWithin_enough _ p rest hp htakes s.length (rest.length + 1)
    (hp.length_lt htakes h) (Nat.lt_succ_self _)
  unfold many
  rw [← hmore]
  simp [manyWithin, h, htakes s _ h]

end

/-! ## Expressions -/

section
variable {expr : Parser Expr} (hexpr : Counts expr)
include hexpr

theorem counts_predicate : Counts (predicate expr) := counts_closed.predicate hexpr

theorem counts_nextSteps : Counts (nextSteps expr) := counts_closed.nextSteps hexpr

theorem Counts.nextOperand (level : Grammar.Level) :
    Counts (nextOperand expr (operatorOf level)) :=
  counts_closed.nextOperand hexpr level

theorem counts_levelOf (level : Grammar.Level) : Counts (levelOf expr level) :=
  counts_closed.levelOf hexpr level

end

theorem counts_exprWithin (n : Nat) : Counts (exprWithin n) := counts_closed.exprWithin n

end XPath.Parser
