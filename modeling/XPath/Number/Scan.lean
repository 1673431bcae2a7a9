import XPath.Number.Numeral
/-! Numerals recognised in one pass. A scan goes through a text once and keeps in mind only whether a
point and whether a digit has come. The text of a number is scanned without the blanks around it and
without the minus sign in front. -/
namespace XPath.Number
set_option autoImplicit false

/-! ## Scans -/

/-- What has come so far in a scan. -/
structure Seen where
  point : Bool
  digit : Bool
  deriving DecidableEq, Repr

namespace Seen

/-- Takes one more character. A second point ends the scan, and so does any character but digits and
points. -/
def next? (seen : Seen) (c : Char) : Option Seen :=
  if c.isDigit then some { seen with digit := true }
  else if c == '.' && !seen.point then some { seen with point := true }
  else none

/-- Whether a scan that has come so far gets to the end of the text and has a digit then. -/
def accepts (seen : Seen) (s : List Char) : Bool := (s.foldlM next? seen).any digit

end Seen

/-- A text without the minus sign in front, if it has one there. -/
def unsigned : List Char → List Char
  | '-' :: rest => rest
  | rest => rest

/-- Whether a text passes for that of a number. -/
def scans (s : List Char) : Bool :=
  Seen.accepts ⟨false, false⟩ (unsigned (Text.trim Text.isBlank s))

/-! ## The texts of numbers -/

/-- Digits, digits with a point behind or among them, or a point with digits behind it. -/
inductive IsNumeral : List Char → Prop
  | whole {digits : List Char} :
    digits ≠ [] → (∀ c ∈ digits, c.isDigit = true) → IsNumeral digits
  | decimal {digits fraction : List Char} :
    digits ≠ [] → (∀ c ∈ digits, c.isDigit = true) → (∀ c ∈ fraction, c.isDigit = true) →
    IsNumeral (digits ++ '.' :: fraction)
  | fraction {digits : List Char} :
    digits ≠ [] → (∀ c ∈ digits, c.isDigit = true) → IsNumeral ('.' :: digits)

/-- A numeral, at most one minus sign in front of it, and blanks around both. -/
inductive IsNumberText : List Char → Prop
  | unsigned {before w after : List Char} :
    (∀ c ∈ before, Text.isBlank c = true) → IsNumeral w →
    (∀ c ∈ after, Text.isBlank c = true) → IsNumberText (before ++ w ++ after)
  | signed {before w after : List Char} :
    (∀ c ∈ before, Text.isBlank c = true) → IsNumeral w →
    (∀ c ∈ after, Text.isBlank c = true) → IsNumberText (before ++ '-' :: w ++ after)

end XPath.Number
