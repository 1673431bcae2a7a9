import XPath.Markup.Token
/-! The items of XML text, in the order in which they are written: tags, texts, comments and
processing instructions. What lies between an element's tags is not yet put into the element. -/
namespace XPath.Markup
set_option autoImplicit false

open XPath.Parser

/-! ## Items -/

/-- How a start tag ends. It has no end if the text ends first. -/
inductive TagEnd where
  | opening
  | empty
  | missing
  deriving DecidableEq, Repr

inductive Item where
  | startTag (name : QName) (attributes : List WrittenAttribute) (tagEnd : TagEnd)
  | endTag (name : QName)
  /-- Character data with its references. -/
  | text (data : List Char)
  /-- Character data in which nothing is a reference. -/
  | verbatim (data : List Char)
  | comment (data : String)
  | instruction (target data : String)
  deriving DecidableEq, Repr

namespace Item

def isTag : Item → Bool
  | startTag .. => true
  | endTag _ => true
  | _ => false

/-- The number of open elements after an item. -/
def levelsAfter (levels : Nat) : Item → Nat
  | startTag _ _ .opening => levels + 1
  | endTag _ => levels - 1
  | _ => levels

end Item

/-! ## Comments and processing instructions -/

/-- A comment; it holds no two hyphens in a row and does not end in one. -/
def comment : Parser Item := do
  word "<!--"
  let data ← textUpTo "--"
  let _ ← char '>'
  return .comment (String.ofList data)

/-- A processing instruction. Only an XML declaration has a space after the target `xml`. -/
def instruction : Parser Item := do
  word "<?"
  let target ← name
  let rest ← takeWhile Text.isBlank
  let data ← textUpTo "?>"
  if target == "xml".toList && rest.head? == some ' ' then fail
  return .instruction (String.ofList target) (String.ofList data)

/-! ## Tags -/

def tagEnd : Parser TagEnd :=
  firstOf [do finished; return .missing, do blanks; word "/>"; return .empty,
    do blanks; let _ ← char '>'; return .opening]

def startTag : Parser Item := do
  let _ ← char '<'
  let name ← qualifiedName
  if name.qualifier == some "xmlns" then fail
  let attributes ← many (do gap; writtenAttribute)
  return .startTag name attributes (← tagEnd)

def endTag : Parser Item := do
  word "</"
  let name ← qualifiedName
  blanks
  let _ ← char '>'
  return .endTag name

/-! ## Character data -/

def hasSectionEnd : List Char → Bool
  | [] => false
  | c :: rest => "]]>".toList.isPrefixOf (c :: rest) || hasSectionEnd rest

/-- Character data up to the next tag. It may not hold the end of a character data section. -/
def characterData : Parser Item := do
  let first ← satisfy (· != '<')
  let data := first :: (← takeWhile (· != '<'))
  if !data.all isAllowed || hasSectionEnd data then fail
  return .text data

/-- A character data section. -/
def verbatim : Parser Item := do
  word "<![CDATA["
  return .verbatim (← textUpTo "]]>")

/-! ## Content -/

/-- An item of the content of an element; the first characters tell its sort. -/
def item : Parser Item :=
  firstOf [comment, verbatim, instruction, endTag, startTag, characterData]

/-- At most `count` items, up to the end tag that leaves no element open or to the end of the
text. -/
def itemsWithin : Nat → Nat → Parser (List Item)
  | 0, _ => fail
  | count + 1, levels => do
    match ← optional finished with
    | some _ => return []
    | none => do
      let item ← item
      match item.levelsAfter levels with
      | 0 => return [item]
      | levels => return item :: (← itemsWithin count levels)

/-- The items from inside an element on, up to its end tag or to the end of the text. -/
def content : Parser (List Item) := fun s => itemsWithin (s.length + 1) 1 s

/-- The items of an element. -/
def element : Parser (List Item) := do
  let tag ← startTag
  match tag with
  | .startTag _ _ .opening => return tag :: (← content)
  | _ => return [tag]

end XPath.Markup
