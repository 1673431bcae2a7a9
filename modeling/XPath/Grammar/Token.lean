import XPath.Parser.Token
/-! The tokens of expressions, and how a text is read as tokens. Blanks may stand before, between
and after them. A token reaches as far as one of its sort can: a name is not followed by a further
character of names, and no symbol is the beginning of a longer one. -/
namespace XPath.Grammar
set_option autoImplicit false

open XPath.Parser

/-! ## Tokens -/

/-- Punctuation, and the operators that are not names. -/
def symbols : List String :=
  ["(", ")", "[", "]", ".", "..", "@", ",", "::", "/", "//", "|", "+", "-", "*", "=", "!=",
    "<", "<=", ">", ">=", "&lt;", "&lt;=", "&gt;", "&gt;="]

inductive Token where
  | symbol (text : String)
  /-- The name of a node, a node type, an axis, a function or an operator. -/
  | name (qname : QName)
  /-- A qualifier and `:*`, for all names with this qualifier. -/
  | anyWith (qualifier : String)
  | reference (qname : QName)
  | literal (text : String)
  | number (value : Number)
  deriving DecidableEq

-- These decide by going through what is there, never through all characters.
instance (priority := high) decidableForallMem (P : Char → Prop) [DecidablePred P]
    (l : List Char) : Decidable (∀ c ∈ l, P c) := List.decidableBAll P l

instance (priority := high) decidableForallMemOption (P : Char → Prop) [DecidablePred P]
    (o : Option Char) : Decidable (∀ c ∈ o, P c) := Option.decidableForallMem o

instance (priority := high) decidableExistsMem (P : Char → Prop) [DecidablePred P]
    (l : List Char) : Decidable (∃ c ∈ l, P c) := List.decidableBEx P l

/-- A name without a colon. -/
def IsSimpleName (w : List Char) : Prop :=
  ∃ first more, w = first :: more ∧ isNameStart first = true ∧ ∀ c ∈ more, isNameChar c = true

instance (w : List Char) : Decidable (IsSimpleName w) :=
  match w with
  | [] => isFalse (by rintro ⟨_, _, ⟨⟩, _⟩)
  | first :: more =>
    decidable_of_iff (isNameStart first = true ∧ ∀ c ∈ more, isNameChar c = true)
      ⟨fun h => ⟨first, more, rfl, h⟩, by rintro ⟨_, _, ⟨⟩, h⟩; exact h⟩

/-- A name made of one or two simple names. -/
def IsProperName (qname : QName) : Prop :=
  (∀ qualifier ∈ qname.qualifier, IsSimpleName qualifier.toList) ∧
    IsSimpleName qname.localPart.toList

/-- Whether a text begins with a character of a class. -/
def startsIn (cls : Char → Bool) (s : List Char) : Bool := s.head?.any cls

/-- The text `s` begins with the token, and `rest` is what follows it. -/
def Token.Leads : Token → List Char → List Char → Prop
  | symbol text, s, rest =>
    text ∈ symbols ∧ s = text.toList ++ rest ∧
      ∀ longer ∈ symbols, longer.toList <+: s → longer.length ≤ text.length
  | name qname, s, rest =>
    IsProperName qname ∧ s = qname.text.toList ++ rest ∧ startsIn isNameChar rest = false
  | anyWith qualifier, s, rest =>
    IsSimpleName qualifier.toList ∧ s = qualifier.toList ++ ':' :: '*' :: rest
  | reference qname, s, rest =>
    IsProperName qname ∧ s = '$' :: (qname.text.toList ++ rest) ∧ startsIn isNameChar rest = false
  | literal text, s, rest =>
    ∃ quote, (quote = '\'' ∨ quote = '"') ∧ quote ∉ text.toList ∧
      s = quote :: (text.toList ++ quote :: rest)
  | number value, s, rest =>
    ∃ w whole fraction, s = w ++ rest ∧ Number.numeral? w = some (whole, fraction) ∧
      value = .ofDecimal false whole fraction ∧ startsIn Char.isDigit rest = false ∧
      ('.' ∈ w ∨ startsIn (· == '.') rest = false)

/-- The text `s` begins with the tokens, and `rest` is what follows them. -/
inductive Scan : List Char → List Token → List Char → Prop
  | done {s : List Char} : Scan s [] s
  | blank {c : Char} {s rest : List Char} {tokens : List Token} :
    Text.isBlank c = true → Scan s tokens rest → Scan (c :: s) tokens rest
  | token {s mid rest : List Char} {token : Token} {tokens : List Token} :
    token.Leads s mid → Scan mid tokens rest → Scan s (token :: tokens) rest

/-! ## Brackets -/

def isQuote (c : Char) : Bool := c == '\'' || c == '"'

def isBracket (c : Char) : Bool := c == '(' || c == ')' || c == '[' || c == ']'

/-- The parentheses and brackets of a text that stand outside of literals. `quote` is the quote of
the literal that the text begins in, if it begins in one. -/
def bracketsFrom (quote : Option Char) : List Char → List Char
  | [] => []
  | c :: rest =>
    match quote with
    | some q => bracketsFrom (if c = q then none else some q) rest
    | none =>
      if isQuote c then bracketsFrom (some c) rest
      else if isBracket c then c :: bracketsFrom none rest
      else bracketsFrom none rest

/-- The parentheses and brackets of a text that stand outside of literals. -/
def brackets (s : List Char) : List Char := bracketsFrom none s

def Token.brackets : Token → List Char
  | symbol text => text.toList.filter isBracket
  | _ => []

/-- Every opening character has its closing one of the same sort, and pairs do not cross. -/
inductive Balanced : List Char → Prop
  | nil : Balanced []
  | round {inner after : List Char} :
    Balanced inner → Balanced after → Balanced ('(' :: (inner ++ ')' :: after))
  | square {inner after : List Char} :
    Balanced inner → Balanced after → Balanced ('[' :: (inner ++ ']' :: after))

end XPath.Grammar
