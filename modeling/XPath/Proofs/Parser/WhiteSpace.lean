import XPath.Expr.Parse
import XPath.Proofs.Parser.Extension
/-! White space around expressions. Behind an expression every character of the White_Space property
may stand, since what is left there is looked at once more. In front of it only blanks may: they are
dropped before each operand, and no expression begins with another space. -/
namespace XPath.Parser
set_option autoImplicit false

open Grammar

section
variable {α β : Type} {p : Parser α} {f : α → Parser β} {expr : Parser Expr} {s w : List Char}
  {n : Nat}

/-! ## Blanks in front -/

/-- Blanks in front do not matter to the parser. -/
def SkipsBlanks (p : Parser α) : Prop := ∀ s, (p s).result = (p (s.dropWhile Text.isBlank)).result

theorem SkipsBlanks.spaced (p : Parser α) : SkipsBlanks (spaced p) := by
  intro s
  rw [result_spaced, result_spaced, dropBlanks_dropBlanks]

theorem SkipsBlanks.bind (hp : SkipsBlanks p) : SkipsBlanks (p >>= f) := by
  intro s
  rw [result_bind, result_bind, hp s]

theorem SkipsBlanks.leftGrouped {operand : Parser Expr} (h : SkipsBlanks operand)
    (op : Parser BinaryOp) : SkipsBlanks (leftGrouped operand op) := h.bind

theorem skipsBlanks_unionExpr : SkipsBlanks (unionExpr expr) :=
  SkipsBlanks.leftGrouped (.spaced _) _

/-- Where no sign stands in front, the operand drops the blanks that the signs left. -/
theorem skipsBlanks_unaryExpr : SkipsBlanks (unaryExpr expr) := by
  intro s
  have hsign := SkipsBlanks.spaced (char '-') s
  unfold unaryExpr
  rw [result_bind, result_bind]
  cases hfirst : (spaced (char '-') s).result with
  | none =>
    rw [result_many_nil hfirst, result_many_nil (hsign ▸ hfirst), Option.bind_some,
      Option.bind_some, result_bind, result_bind, skipsBlanks_unionExpr s]
  | some found =>
    have hcounts : Counts (spaced (char '-')) := (Counts.char '-').spaced
    have htakes : Takes (spaced (char '-')) := (Takes.char '-').spaced
    have hmany : (many (spaced (char '-')) s).result =
        (many (spaced (char '-')) (s.dropWhile Text.isBlank)).result :=
      (result_many_step hcounts htakes hfirst).trans
        (result_many_step hcounts htakes (hsign.symm.trans hfirst)).symm
    rw [hmany]

theorem skipsBlanks_exprWithin (n : Nat) : SkipsBlanks (exprWithin n) := by
  cases n with
  | zero => exact fun _ => rfl
  | succ n =>
    exact .leftGrouped (.leftGrouped (.leftGrouped (.leftGrouped (.leftGrouped (.leftGrouped
      skipsBlanks_unaryExpr _) _) _) _) _) _

theorem SkipsBlanks.append (hp : SkipsBlanks p) (hw : ∀ c ∈ w, Text.isBlank c = true) :
    (p (w ++ s)).result = (p s).result := by
  rw [hp (w ++ s), List.dropWhile_append_of_pos hw, ← hp s]

/-! ## Other spaces in front -/

theorem beginsExpr_eq_false_of_isSpace {c : Char} (h : Text.isSpace c = true) :
    beginsExpr c = false := by
  have hall : ∀ n ∈ spaceCodes, beginsExpr (Char.ofNat n) = false := by decide +kernel
  have hc := hall c.toNat (mem_spaceCodes h)
  rwa [Char.ofNat_toNat] at hc

theorem exprWithin_none_of_space (hw : ∀ c ∈ w, Text.isSpace c = true)
    (hother : ∃ c ∈ w, Text.isBlank c = false) (n : Nat) :
    (exprWithin n (w ++ s)).result = none := by
  obtain ⟨d, hd, hblank⟩ := hother
  have hne : w.dropWhile Text.isBlank ≠ [] := by
    rw [ne_eq, List.dropWhile_eq_nil_iff]
    intro hall
    rw [hall d hd] at hblank
    cases hblank
  obtain ⟨c, more, heq⟩ := List.exists_cons_of_ne_nil hne
  have hdrop : (w ++ s).dropWhile Text.isBlank = c :: (more ++ s) := by
    rw [List.dropWhile_append, if_neg (by simpa using hne), heq, List.cons_append]
  have hspace : Text.isSpace c = true :=
    hw c ((List.dropWhile_suffix _).subset (heq ▸ List.mem_cons_self))
  have hstarts : startsIn Text.isBlank (c :: more) = false := heq ▸ startsIn_dropWhile _
  rw [skipsBlanks_exprWithin n, hdrop]
  exact @exprWithin_none (c :: (more ++ s)) hstarts (beginsExpr_eq_false_of_isSpace hspace) n

end
end XPath.Parser

namespace XPath
open XPath.Parser

variable {text space : String} {e : Expr}

/-! ## Whole texts -/

theorem parse_eq_ok_iff : Expr.parse text = .ok e ↔
    ∃ rest, (Parser.expr text.toList).result = some (e, rest) ∧
      ∀ c ∈ rest, Text.isSpace c = true := by
  unfold Expr.parse
  dsimp only
  cases (Parser.expr text.toList).result with
  | none => simp
  | some found =>
    obtain ⟨e', rest⟩ := found
    have hempty : (rest.dropWhile Text.isSpace).isEmpty = true ↔
        ∀ c ∈ rest, Text.isSpace c = true := by
      rw [List.isEmpty_iff, List.dropWhile_eq_nil_iff]
    by_cases hrest : (rest.dropWhile Text.isSpace).isEmpty = true
    · simp only [hrest, ↓reduceIte, Except.ok.injEq, Option.some.injEq, Prod.mk.injEq]
      constructor
      · rintro rfl
        exact ⟨rest, ⟨rfl, rfl⟩, hempty.mp hrest⟩
      · rintro ⟨_, ⟨rfl, -⟩, -⟩
        rfl
    · have hother : ¬ ∀ c ∈ rest, Text.isSpace c = true := fun hall => hrest (hempty.mpr hall)
      simp only [hrest, Bool.false_eq_true, ↓reduceIte]
      refine iff_of_false (by split <;> nofun) ?_
      rintro ⟨_, heq, hall⟩
      rw [← (Prod.mk.inj (Option.some.inj heq)).2] at hall
      exact hother hall

theorem parse_error_of_none (h : (Parser.expr text.toList).result = none) :
    ∃ error, Expr.parse text = .error error := by
  unfold Expr.parse
  simp only [h]
  exact ⟨_, rfl⟩

theorem parse_append_space (h : Expr.parse text = .ok e)
    (hspace : ∀ c ∈ space.toList, Text.isSpace c = true) : Expr.parse (text ++ space) = .ok e := by
  obtain ⟨rest, hread, hrest⟩ := parse_eq_ok_iff.mp h
  rw [parse_eq_ok_iff, String.toList_append]
  obtain ⟨more, hread', hmore⟩ := exists_exprWithin_append_space hread (Nat.lt_succ_self _)
    (Nat.lt_succ_self _) hspace
  refine ⟨rest ++ more, hread', fun c hc => ?_⟩
  exact (List.mem_append.mp hc).elim (hrest c) (hmore c)

theorem parse_blank_append (h : Expr.parse text = .ok e)
    (hspace : ∀ c ∈ space.toList, Text.isBlank c = true) : Expr.parse (space ++ text) = .ok e := by
  obtain ⟨rest, hread, hrest⟩ := parse_eq_ok_iff.mp h
  rw [parse_eq_ok_iff, String.toList_append]
  -- The text in front only adds to the depth that the parser allows.
  have hdepth : (text.toList ++ []).length < (space.toList ++ text.toList).length + 1 := by
    simp only [List.length_append, List.length_nil]
    omega
  obtain ⟨more, hread', hmore⟩ := exists_exprWithin_append_space hread (Nat.lt_succ_self _) hdepth
    (by simp)
  rw [List.append_nil] at hread'
  refine ⟨rest ++ more, ?_, fun c hc => (List.mem_append.mp hc).elim (hrest c) (hmore c)⟩
  unfold Parser.expr
  rw [(skipsBlanks_exprWithin _).append hspace, hread']

theorem parse_space_append (hspace : ∀ c ∈ space.toList, Text.isSpace c = true)
    (hother : ∃ c ∈ space.toList, Text.isBlank c = false) :
    ∃ error, Expr.parse (space ++ text) = .error error := by
  refine parse_error_of_none ?_
  rw [String.toList_append]
  exact exprWithin_none_of_space hspace hother _

/-- White space behind an expression is any character of the White_Space property; white space in
front of it is one of the four blanks, and anything else there is a syntax error. -/
theorem parse_among_white_space (h : Expr.parse text = .ok e)
    (hspace : ∀ c ∈ space.toList, Text.isSpace c = true) :
    Expr.parse (text ++ space) = .ok e ∧
      ((∀ c ∈ space.toList, Text.isBlank c = true) → Expr.parse (space ++ text) = .ok e) ∧
      ((∃ c ∈ space.toList, Text.isBlank c = false) →
        ∃ error, Expr.parse (space ++ text) = .error error) :=
  ⟨parse_append_space h hspace, parse_blank_append h, parse_space_append hspace⟩

/-- A no-break space is white space behind an expression and an error in front of it. -/
theorem parse_among_no_break_spaces :
    ∃ e, Expr.parse "1" = .ok e ∧ Expr.parse ("1" ++ "\u00a0") = .ok e ∧
      ∃ error, Expr.parse ("\u00a0" ++ "1") = .error error := by
  obtain ⟨e, he⟩ := @exists_parse "1" (by decide +kernel)
  obtain ⟨hbehind, -, hfront⟩ := @parse_among_white_space "1" "\u00a0" e he (by decide)
  exact ⟨e, he, hbehind, hfront ⟨'\u00a0', by decide, rfl⟩⟩

end XPath
