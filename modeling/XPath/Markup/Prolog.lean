import XPath.Markup.Item
/-! What may stand before the root element of an XML text: the XML declaration, comments, processing
instructions, and a document type with entity declarations. -/
namespace XPath.Markup
set_option autoImplicit false

open XPath.Parser

/-- Comments and processing instructions with blanks around them. -/
def misc : Parser (List Item) := do
  let items ← many (do blanks; firstOf [comment, instruction])
  blanks
  return items

/-! ## The XML declaration -/

/-- An attribute of the declaration, whose name begins with the given word. -/
def declared (word : String) : Parser Unit := do
  let _ ← peek (Parser.word word)
  let _ ← writtenAttribute

/-- A gap, unless the declaration ends here. -/
def gapOrEnd : Parser Unit := gap <|> peek (word "?>")

/-- The XML declaration. Its name is followed by a space; after another blank it would be that of a
processing instruction. -/
def declaration : Parser Unit := do
  word "<?xml"
  let _ ← peek (char ' ')
  gap
  declared "version"
  gapOrEnd
  let _ ← optional (do declared "encoding"; gapOrEnd)
  let _ ← optional (declared "standalone")
  blanks
  word "?>"

/-! ## The document type -/

/-- An entity that references may name, with its replacement text. -/
structure Entity where
  name : List Char
  value : List Char
  deriving DecidableEq, Repr

def anyLiteral : Parser (List Char) := quotedValue fun _ => true

def externalId : Parser Unit :=
  (do word "SYSTEM"; gap; let _ ← anyLiteral) <|>
  (do word "PUBLIC"; gap; let _ ← anyLiteral; gap; let _ ← anyLiteral)

/-- A notation name after the identifier of an external entity. -/
def notationName : Parser Unit := do
  word "NDATA"
  gap
  let _ ← name

/-- The declaration of an entity. External ones have no replacement text here. Parameter entities
are no different, but have no notation. -/
def entityDeclaration : Parser (List Entity) := do
  word "<!ENTITY"
  gap
  let parameter ← optional (do let _ ← char '%'; gap)
  let name ← name
  gap
  let value ← optional anyLiteral
  if value.isNone then
    externalId
    blanks
    if parameter.isNone then
      let _ ← optional notationName
  blanks
  let _ ← char '>'
  return (value.map fun value => Entity.mk name value).toList

/-- A declaration of another sort, which has no effect. -/
def otherDeclaration : Parser Unit := do
  firstOf [word "<!ELEMENT", word "<!ATTLIST", word "<!NOTATION"]
  let _ ← takeWhile (· != '>')
  let _ ← char '>'

/-- What a document type holds. -/
def typeContent : Parser (List Item × List Entity) :=
  firstOf [do return ([], ← entityDeclaration), do return ([← comment], []),
    do return ([← instruction], []), do otherDeclaration; return ([], [])]

def documentType : Parser (List Item × List Entity) := do
  word "<!DOCTYPE"
  gap
  let _ ← name
  blanks
  let _ ← optional externalId
  blanks
  match ← optional (char '>') with
  | some _ => return ([], [])
  | none => do
    let _ ← char '['
    let found ← many (do blanks; typeContent)
    blanks
    let _ ← char ']'
    blanks
    let _ ← char '>'
    return (found.flatMap Prod.fst, found.flatMap Prod.snd)

end XPath.Markup
