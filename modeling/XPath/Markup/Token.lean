import XPath.Document.Node
import XPath.Number.Numeral
import XPath.Parser.Basic
import XPath.Text.Blank
/-! The tokens of XML text: characters, names, references, and the attributes of a tag as they are
written. -/
namespace XPath.Markup
set_option autoImplicit false

open XPath.Parser

/-! ## Characters -/

/-- The characters that may occur in XML text at all. -/
def isAllowed (c : Char) : Bool :=
  let n := c.toNat
  if n < 0x20 then c == '\t' || c == '\n' || c == '\r' else n != 0xFFFE && n != 0xFFFF

def isNameStart (c : Char) : Bool :=
  let n := c.toNat
  if n < 0x80 then c.isAlpha || c == ':' || c == '_'
  else
    [(0xC0, 0xD6), (0xD8, 0xF6), (0xF8, 0x2FF), (0x370, 0x37D), (0x37F, 0x1FFF), (0x200C, 0x200D),
      (0x2070, 0x218F), (0x2C00, 0x2FEF), (0x3001, 0xD7FF), (0xF900, 0xFDCF), (0xFDF0, 0xFFFD),
      (0x10000, 0xEFFFF)].any fun (first, last) => first ≤ n && n ≤ last

def isNameChar (c : Char) : Bool :=
  let n := c.toNat
  isNameStart c || c.isDigit || c == '-' || c == '.' || n == 0xB7 || (0x300 ≤ n && n ≤ 0x36F) ||
    n == 0x203F || n == 0x2040

def blanks : Parser Unit := do let _ ← takeWhile Text.isBlank

/-- At least one blank. -/
def gap : Parser Unit := do
  let _ ← satisfy Text.isBlank
  blanks

/-! ## Delimited text -/

/-- The allowed characters up to a delimiter, which is taken too. -/
def upTo (delimiter : List Char) : List Char → Option (List Char × List Char)
  | [] => none
  | c :: rest =>
    match delimiter.isPrefixOf? (c :: rest) with
    | some after => some ([], after)
    | none =>
      if isAllowed c then (upTo delimiter rest).map fun (text, after) => (c :: text, after)
      else none

def textUpTo (delimiter : String) : Parser (List Char) := fun s =>
  match upTo delimiter.toList s with
  | some (text, rest) => ⟨some (text, rest), text.length + delimiter.length, 0⟩
  | none => ⟨none, 0, 0⟩

/-- The end of the text. -/
def finished : Parser Unit := fun s => if s.isEmpty then ⟨some ((), s), 0, 0⟩ else ⟨none, 0, 0⟩

/-- A value, if there is one. -/
def given {α : Type} : Option α → Parser α
  | some value => pure value
  | none => fail

/-! ## Names -/

/-- A name that may hold colons anywhere. -/
def name : Parser (List Char) := do
  let first ← satisfy isNameStart
  return first :: (← takeWhile isNameChar)

/-- Splits a name at its only colon. An empty part before the colon counts as none. -/
def splitName (s : List Char) : Option QName :=
  let startsName (part : List Char) := part.head?.any fun c => isNameStart c && c != ':'
  match Text.fields (· == ':') s with
  | [localPart] => if startsName localPart then some (.plain (String.ofList localPart)) else none
  | [qualifier, localPart] =>
    if startsName localPart && (qualifier.isEmpty || startsName qualifier) then
      some ⟨if qualifier.isEmpty then none else some (String.ofList qualifier),
        String.ofList localPart⟩
    else none
  | _ => none

def qualifiedName : Parser QName := do given (splitName (← takeWhile isNameChar))

/-! ## References -/

/-- A piece of character data. -/
inductive Piece where
  /-- A character that stands for itself. -/
  | plain (c : Char)
  /-- A character that a reference stands for. -/
  | referred (c : Char)
  | entity (name : List Char)
  deriving DecidableEq, Repr

def hexValue (c : Char) : Option Nat :=
  if c.isDigit then some (c.toNat - '0'.toNat)
  else if 'a' ≤ c && c ≤ 'f' then some (c.toNat - 'a'.toNat + 10)
  else if 'A' ≤ c && c ≤ 'F' then some (c.toNat - 'A'.toNat + 10)
  else none

/-- The character with a code below `2 ^ 32`. Codes that name no character give the replacement
character, and characters that XML text may not hold cannot be referred to. -/
def charOfCode (code : Nat) : Option Char :=
  if Nat.pow 2 32 ≤ code then none
  else
    let c := if code.isValidChar then Char.ofNat code else '\ufffd'
    if isAllowed c then some c else none

def codeReference : Parser Piece := do
  word "&#"
  let code ←
    match ← optional (word "x") with
    | some _ => do
      let first ← satisfy fun c => (hexValue c).isSome
      let more ← takeWhile fun c => (hexValue c).isSome
      pure ((first :: more).foldl (fun n c => 16 * n + (hexValue c).getD 0) 0)
    | none => do
      let first ← satisfy Char.isDigit
      let more ← takeWhile Char.isDigit
      pure (Number.ofDigits (first :: more))
  let c ← given (charOfCode code)
  let _ ← char ';'
  return .referred c

/-- The characters that have names of their own. -/
def namedChars : List (String × Char) :=
  [("quot", '"'), ("amp", '&'), ("apos", '\''), ("lt", '<'), ("gt", '>')]

def namedReference : Parser Piece := do
  let _ ← char '&'
  let name ← name
  let _ ← char ';'
  match namedChars.lookup (String.ofList name) with
  | some c => return .referred c
  | none => return .entity name

def piece : Parser Piece :=
  firstOf [codeReference, namedReference, .plain <$> satisfy (· != '&')]

/-- The pieces that a whole text consists of. -/
def pieces (s : List Char) : Option (List Piece) := (many piece).whole? s

/-! ## Attributes -/

/-- An attribute with its value as it is written between the quotes. -/
structure WrittenAttribute where
  name : QName
  value : List Char
  deriving DecidableEq, Repr

def quotedValue (cls : Char → Bool) : Parser (List Char) := do
  let quote ← satisfy fun c => c == '"' || c == '\''
  let value ← takeWhile fun c => c != quote && cls c
  let _ ← char quote
  return value

def writtenAttribute : Parser WrittenAttribute := do
  let name ← qualifiedName
  blanks
  let _ ← char '='
  blanks
  let value ← quotedValue fun c => c != '<' && isAllowed c
  return ⟨name, value⟩

end XPath.Markup
