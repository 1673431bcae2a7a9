import XPath.Eval.Basic
import XPath.Proofs.Number.Scan
import XPath.Proofs.Parser.Rendering
/-! Numbers in texts and in expressions. A numeral means the same number as an expression and as the
text of one. Texts allow more: blanks around the numeral and a minus sign, which is an operator of its
own in expressions. -/
namespace XPath.Parser
set_option autoImplicit false

variable {α : Type} {p : Parser α} {v : α} {value : Number} {s w : List Char}

/-! ## Numerals as whole texts -/

theorem whole?_eq_some_iff : p.whole? s = some v ↔ (p s).result = some (v, []) := by
  unfold Parser.whole?
  split
  · next heq => simp [heq]
  · next h =>
    constructor
    · nofun
    · intro heq
      exact absurd heq (h v)

theorem whole?_numeral : numeral.whole? w = some value ↔
    ∃ whole fraction, Number.numeral? w = some (whole, fraction) ∧
      value = .ofDecimal false whole fraction := by
  rw [whole?_eq_some_iff, result_numeral]
  constructor
  · rintro ⟨u, whole, fraction, hw, hnumeral, hvalue, -⟩
    rw [List.append_nil] at hw
    exact ⟨whole, fraction, hw ▸ hnumeral, hvalue⟩
  · rintro ⟨whole, fraction, hnumeral, hvalue⟩
    exact ⟨w, whole, fraction, (List.append_nil w).symm, hnumeral, hvalue, rfl, .inr rfl⟩

/-- The numerals are the texts of numbers without blanks and signs. -/
theorem whole?_numeral_isSome_iff : (numeral.whole? w).isSome = true ↔
    Number.read w ≠ .nan ∧ ∀ c ∈ w, Text.isBlank c = false ∧ c ≠ '-' := by
  constructor
  · intro h
    obtain ⟨value, hvalue⟩ := Option.isSome_iff_exists.mp h
    obtain ⟨whole, fraction, hnumeral, -⟩ := whole?_numeral.mp hvalue
    rw [Number.read_of_numeral hnumeral]
    exact ⟨Number.ofDecimal_ne_nan, Number.plain_of_numeral hnumeral⟩
  · rintro ⟨hread, hplain⟩
    rw [ne_eq, Number.read_eq_nan_iff, Text.trim_eq_self fun c hc => (hplain c hc).1,
      Number.unsigned_eq_self fun c hc => (hplain c hc).2] at hread
    obtain ⟨⟨whole, fraction⟩, hnumeral⟩ := Option.ne_none_iff_exists'.mp hread
    rw [whole?_numeral.mpr ⟨whole, fraction, hnumeral, rfl⟩]
    rfl

theorem read_of_whole?_numeral (h : numeral.whole? w = some value) : Number.read w = value := by
  obtain ⟨whole, fraction, hnumeral, rfl⟩ := whole?_numeral.mp h
  exact Number.read_of_numeral hnumeral

/-- A numeral may stand between single quotes. -/
theorem quoted_numeral {t : String} (h : numeral.whole? t.toList = some value) :
    Quoted t ('\'' :: (t.toList ++ ['\''])) := by
  obtain ⟨whole, fraction, hnumeral, -⟩ := whole?_numeral.mp h
  refine ⟨'\'', .inl rfl, fun hmem => ?_, rfl⟩
  cases Number.isDigit_or_point hnumeral _ hmem with
  | inl hdigit => cases hdigit
  | inr hpoint => cases hpoint

end XPath.Parser

namespace XPath
open XPath.Parser

variable {scope : Scope} {focus : Focus} {value : Number} {t : String}

/-! ## Numerals as expressions -/

theorem parse_numeral (h : numeral.whole? t.toList = some value) :
    Expr.parse t = .ok (.number value) := by
  have hread := parse_of_reads (readsBack_number value) (.number (whole?_eq_some_iff.mp h))
  rwa [String.ofList_toList] at hread

theorem parse_number_call (h : numeral.whole? t.toList = some value) :
    Expr.parse ("number('" ++ t ++ "')") = .ok (.call "number" [.literal t]) := by
  have hname : Grammar.IsProperName (.plain "number") :=
    Parser.isProperName_plain (by decide)
  have hreads : ReadsBack (.call "number" [.literal t]) :=
    readsBack_call hname (by decide) (List.forall_mem_singleton.mpr (readsBack_literal t))
  have htext := parse_of_reads hreads (.call (.cons (.literal (quoted_numeral h)) .nil))
  rw [← htext]
  refine congrArg Expr.parse (String.toList_injective ?_)
  simp

theorem evaluate_number_call (hnumber : scope.functions.find? "number" = some (.core .number)) :
    (Expr.call "number" [.literal t]).evaluate scope focus = .ok (.number (.parse t)) := by
  simp only [Expr.evaluate, evaluateAll]
  show scope.call focus "number" [.string t] = _
  unfold Scope.call
  rw [hnumber]
  rfl

/-- Every number but not-a-number equals itself. -/
theorem equals_self (h : value ≠ .nan) : value.equals value = true := by
  cases value with
  | nan => exact absurd rfl h
  | infinite negative => simp [Number.equals, Number.place]
  | finite negative index => simp [Number.equals, Number.place]

/-- The value of the text of a numeral, compared with the numeral itself. -/
theorem evaluate_number_eq (hnumber : scope.functions.find? "number" = some (.core .number))
    (hparse : Number.parse t = value) (hvalue : value ≠ .nan) :
    (Expr.binary (.compare .equal) (.call "number" [.literal t]) (.number value)).evaluate
      scope focus = .ok (.boolean true) := by
  have hequal : (Value.number value).compare scope.document .equal (.number value) = true := by
    simp [Value.compare, Value.scalars, Comparison.holds, Scalar.equals, Scalar.toNumber,
      equals_self hvalue]
  rw [Expr.evaluate, evaluate_number_call hnumber, hparse]
  exact congrArg (fun result => Except.ok (Value.boolean result)) hequal

/-! ## The two grammars -/

/-- The text of a number reads as a number if and only if it is a numeral with at most one minus sign
in front and blanks around both, which one scan finds out. An expression takes such a text for a
numeral if and only if it has neither sign nor blanks, and then both give the same number. -/
theorem numerals_agree (s t : String) :
    (Number.parse s ≠ .nan ↔ Number.IsNumberText s.toList) ∧
    (Number.parse s ≠ .nan ↔ Number.scans s.toList = true) ∧
    ((numeral.whole? t.toList).isSome = true ↔
      Number.parse t ≠ .nan ∧ ∀ c ∈ t.toList, Text.isBlank c = false ∧ c ≠ '-') ∧
    ∀ value, numeral.whole? t.toList = some value →
      Number.parse t = value ∧ Expr.parse t = .ok (.number value) ∧
      ∃ e, Expr.parse ("number('" ++ t ++ "')") = .ok e ∧
        ∀ (scope : Scope) (focus : Focus),
          scope.functions.find? "number" = some (.core .number) →
          e.evaluate scope focus = .ok (.number value) ∧
          (Expr.binary (.compare .equal) e (.number value)).evaluate scope focus =
            .ok (.boolean true) := by
  have hread : Number.parse s ≠ .nan ↔
      (Number.numeral? (Number.unsigned (Text.trim Text.isBlank s.toList))).isSome = true := by
    rw [ne_eq, Number.parse, Number.read_eq_nan_iff, ← Option.isNone_iff_eq_none,
      Option.isSome_iff_ne_none]
    simp
  refine ⟨?_, ?_, whole?_numeral_isSome_iff, fun value h => ?_⟩
  · rw [hread, Number.isNumberText_iff, Option.isSome_iff_exists, Prod.exists]
  · rw [hread, Number.scans, Number.accepts_eq_isSome]
  · have hparse : Number.parse t = value := read_of_whole?_numeral h
    have hvalue : value ≠ .nan :=
      hparse ▸ (whole?_numeral_isSome_iff.mp (Option.isSome_of_eq_some h)).1
    refine ⟨hparse, parse_numeral h, _, parse_number_call h, fun scope focus hnumber => ⟨?_, ?_⟩⟩
    · rw [evaluate_number_call hnumber, hparse]
    · exact evaluate_number_eq hnumber hparse hvalue

/-- A point may begin the numeral of a text with blanks and a sign, or end that of an expression; a
blank behind the sign and a second point are errors. -/
theorem numerals_agree_of_points :
    Number.IsNumberText "\t-.5 ".toList ∧ ¬ Number.IsNumberText "- 5".toList ∧
      ¬ Number.IsNumberText "1.2.3".toList ∧
      ∃ e value, numeral.whole? "2.".toList = some value ∧ Number.parse "2." = value ∧
        Expr.parse "number('2.')" = .ok e ∧
        e.evaluate (.startingAt .empty Document.root .core (fun _ => none) none) (.on Document.root) =
          .ok (.number value) := by
  have hliteral : (numeral.whole? "2.".toList).isSome = true := by decide +kernel
  obtain ⟨value, hvalue⟩ := Option.isSome_iff_exists.mp hliteral
  obtain ⟨hpoint, -, -, hboth⟩ := numerals_agree "\t-.5 " "2."
  obtain ⟨hparse, -, e, he, hevaluate⟩ := hboth value hvalue
  refine ⟨hpoint.mp (by decide +kernel), fun h => ?_, fun h => ?_, e, value, hvalue, hparse, he,
    (hevaluate _ _ (by rfl)).1⟩
  · exact (numerals_agree "- 5" "").1.mpr h (by decide +kernel)
  · exact (numerals_agree "1.2.3" "").1.mpr h (by decide +kernel)

end XPath
