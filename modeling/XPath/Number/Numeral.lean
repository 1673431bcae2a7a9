import XPath.Number.Basic
import XPath.Text.Blank
/-! Reading numbers. A numeral is digits with an optional point and further digits, or a point
followed by digits; the text of a number may also have blanks around it and one minus sign in
front. Any other text reads as not-a-number. -/
namespace XPath.Number
set_option autoImplicit false

/-- The whole number that a run of decimal digits writes. -/
def ofDigits (digits : List Char) : Nat :=
  digits.foldl (fun n c => 10 * n + (c.toNat - '0'.toNat)) 0

/-- The number nearest to the decimal with the given digits before and after the point. -/
def ofDecimal (negative : Bool) (whole fraction : List Char) : Number :=
  ofFraction negative (ofDigits (whole ++ fraction)) (Nat.pow 10 fraction.length)

/-- The digits before and after the point, if the text is a numeral. -/
def numeral? (s : List Char) : Option (List Char × List Char) :=
  let whole := s.takeWhile Char.isDigit
  match s.dropWhile Char.isDigit with
  | [] => if whole = [] then none else some (whole, [])
  | '.' :: fraction =>
    if fraction.all Char.isDigit && !(whole ++ fraction).isEmpty then some (whole, fraction) else none
  | _ => none

/-- Reads the text of a number. -/
def read (s : List Char) : Number :=
  let (negative, digits) :=
    match Text.trim Text.isBlank s with
    | '-' :: rest => (true, rest)
    | rest => (false, rest)
  match numeral? digits with
  | some (whole, fraction) => ofDecimal negative whole fraction
  | none => nan

def parse (text : String) : Number := read text.toList

end XPath.Number
