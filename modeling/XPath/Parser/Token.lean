import XPath.Expr.Basic
import XPath.Number.Numeral
import XPath.Parser.Basic
import XPath.Text.Letter
/-! The tokens of expressions: names, literals, numerals and operators. Blanks may stand on either
side of most of them. -/
namespace XPath.Parser
set_option autoImplicit false

def blanks : Parser Unit := do let _ ← takeWhile Text.isBlank

/-- Allows blanks on both sides. -/
def spaced {α : Type} (p : Parser α) : Parser α := do
  blanks
  let value ← p
  blanks
  return value

/-! ## Names -/

def isNameStart (c : Char) : Bool := Text.isLetter c || c == '_'

def isNameChar (c : Char) : Bool :=
  Text.isLetter c || Text.isNumeric c || c == '_' || c == '-' || c == '.'

/-- A name without a colon. -/
def simpleName : Parser String := do
  let first ← satisfy isNameStart
  let more ← takeWhile isNameChar
  return String.ofList (first :: more)

/-- One or two simple names with a colon between them, as one text. -/
def qualifiedName : Parser String := do
  let first ← simpleName
  match ← optional (do let _ ← char ':'; simpleName) with
  | some second => return first ++ ":" ++ second
  | none => return first

/-! ## Literals -/

def digits : Parser (List Char) := do
  let first ← satisfy Char.isDigit
  let more ← takeWhile Char.isDigit
  return first :: more

/-- Digits with an optional point and fraction. -/
def wholeNumeral : Parser Number := do
  let whole ← digits
  let fraction ← optional (do let _ ← char '.'; optional digits)
  return .ofDecimal false whole ((fraction.bind id).getD [])

/-- A point and a fraction. -/
def pointNumeral : Parser Number := do
  let _ ← char '.'
  let fraction ← digits
  return .ofDecimal false [] fraction

def numeral : Parser Number := wholeNumeral <|> pointNumeral

def quotedBy (quote : Char) : Parser String := do
  let _ ← char quote
  let text ← takeWhile (· != quote)
  let _ ← char quote
  return String.ofList text

/-- Text between two quotes of one sort; the text does not hold that quote. -/
def literal : Parser String := quotedBy '\'' <|> quotedBy '"'

/-! ## Operators -/

/-- An operator written as a name, which ends where a name would. -/
def keyword (text : String) : Parser Unit := wordNotBefore text isNameChar

/-- A spelling that stands for an operator. -/
def spelling {α : Type} (text : String) (value : α) : Parser α := do word text; return value

def orOp : Parser BinaryOp := do keyword "or"; return .or

def andOp : Parser BinaryOp := do keyword "and"; return .and

def equalityOp : Parser BinaryOp :=
  spelling "=" (.compare .equal) <|> spelling "!=" (.compare .notEqual)

/-- The angle brackets may be written as entity references. -/
def relationalOp : Parser BinaryOp :=
  firstOf [spelling "<=" (.compare .lessEqual), spelling "&lt;=" (.compare .lessEqual),
    spelling ">=" (.compare .greaterEqual), spelling "&gt;=" (.compare .greaterEqual),
    spelling "<" (.compare .less), spelling "&lt;" (.compare .less),
    spelling ">" (.compare .greater), spelling "&gt;" (.compare .greater)]

def additiveOp : Parser BinaryOp :=
  spelling "+" (.arith .add) <|> spelling "-" (.arith .subtract)

def multiplicativeOp : Parser BinaryOp :=
  firstOf [spelling "*" (.arith .multiply), do keyword "div"; return .arith .divide,
    do keyword "mod"; return .arith .modulo]

def unionOp : Parser BinaryOp := spelling "|" .union

end XPath.Parser
