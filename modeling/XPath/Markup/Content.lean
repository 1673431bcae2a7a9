import XPath.Markup.Prolog
import XPath.Markup.Tree
/-! XML text as a whole. Its references are replaced while the trees are built: what an entity
stands for in content is read as content of its own, which may open and close elements of the text
around it. How deep entities refer to each other, and how often, is limited.

With the modules under it, `parse` stands for an XML reader that programs take from a package, used
with document types allowed and every other setting at its default. It accepts the texts that the
package accepts, and its trees hold what documents are built from: names with their namespaces, the
bindings in scope, values and data. Left out are why and where a text is refused, the places in the
text that nodes come from, and the bound on the number of nodes. Theorems about documents do not
depend on this reader: they are about the trees of any, and where the names in these have to be
resolved, that is a hypothesis. -/
namespace XPath.Markup
set_option autoImplicit false

open XPath.Parser

/-! ## Entities -/

/-- The deepest nesting of entities. -/
def entityDepth : Nat := 10

/-- The most references to entities inside of one entity, at all depths together. -/
def referenceLimit : Nat := 255

def lookup (entities : List Entity) (name : List Char) : Option (List Char) :=
  (entities.find? fun entity => entity.name == name).map Entity.value

/-- Counts a reference to an entity; one that is not inside of an entity starts the count. -/
def countReference : Option Nat → Option (Option Nat)
  | none => some (some 0)
  | some n => if n < referenceLimit then some (some (n + 1)) else none

/-- The count after an entity, which ends with the outermost one. -/
def afterReference (before inside : Option Nat) : Option Nat := before.bind fun _ => inside

/-- What the entities stand for. -/
structure Expansion where
  /-- The text that an entity stands for in an attribute value, given and followed by the count of
  references. -/
  value : List Char → Option Nat → Option (List Char × Option Nat)
  /-- Adds what an entity stands for in content. -/
  content : List Char → Draft → Option Draft

/-! ## Attribute values -/

/-- The value that an attribute has. Blanks become spaces, one for the two characters of a line end;
inside an entity that holds for referred characters too, and `<` may not be referred to. -/
def valueOf (expansion : Expansion) : List Piece → Option Nat → Option (List Char × Option Nat)
  | [], references => some ([], references)
  | .plain c :: rest, references => do
    let (more, after) ← valueOf expansion rest references
    if c == '\r' && rest.head? == some (.plain '\n') then return (more, after)
    else return ((if Text.isBlank c then ' ' else c) :: more, after)
  | .referred c :: rest, references => do
    let (more, after) ← valueOf expansion rest references
    if references.isNone then return (c :: more, after)
    else if c == '<' then none
    else return ((if Text.isBlank c then ' ' else c) :: more, after)
  | .entity name :: rest, references => do
    let (inner, between) ← expansion.value name references
    let (more, after) ← valueOf expansion rest between
    return (inner ++ more, after)

/-- The values of written attributes, in order. -/
def valuesOf (expansion : Expansion) :
    List WrittenAttribute → Option Nat → Option (List (QName × String) × Option Nat)
  | [], references => some ([], references)
  | written :: rest, references => do
    let (value, between) ← valueOf expansion (← pieces written.value) references
    let (more, after) ← valuesOf expansion rest between
    return ((written.name, String.ofList value) :: more, after)

/-! ## Text -/

/-- The text of pieces without entities. A line end becomes one line feed. A referred character,
and the character after it, is taken as it is. `final` tells whether the text ends after these
pieces. -/
def lineEnds (final : Bool) : List Char → Bool → List Piece → List Char
  | done, _, [] => done.reverse
  | done, _, .entity _ :: rest => lineEnds final done false rest
  | done, _, .referred c :: rest => lineEnds final (c :: done) true rest
  | done, true, .plain c :: rest => lineEnds final (c :: done) false rest
  | done, false, .plain c :: rest =>
    let atEnd := final && rest.isEmpty && c == '\r'
    let next := if atEnd then '\n' else c
    match done with
    | '\r' :: older =>
      if c == '\n' then lineEnds final ('\n' :: older) false rest
      else lineEnds final (next :: '\n' :: older) false rest
    | _ => lineEnds final (next :: done) false rest

/-- Adds a run of pieces without entities, given in reverse. Nothing comes of an empty run. -/
def Draft.addRun (d : Draft) (final : Bool) (run : List Piece) : Draft :=
  if run.isEmpty then d else d.addText (lineEnds final [] false run.reverse)

/-- Adds the pieces of a text after a run of them. Inside an entity a referred character is like any
other. -/
def Draft.addPieces (expansion : Expansion) : List Piece → List Piece → Draft → Option Draft
  | run, [], d => some (d.addRun true run)
  | run, .entity name :: rest, d => do
    addPieces expansion [] rest (← expansion.content name (d.addRun false run))
  | run, .referred c :: rest, d =>
    let piece : Piece := if d.references.isSome then .plain c else .referred c
    addPieces expansion (piece :: run) rest d
  | run, piece :: rest, d => addPieces expansion (piece :: run) rest d

/-! ## Content -/

def Draft.addItem (expansion : Expansion) (d : Draft) : Item → Option Draft
  | .startTag name attributes tagEnd => do
    let (values, references) ← valuesOf expansion attributes d.references
    { d with references }.startTag name values tagEnd
  | .endTag name => d.endTag name
  | .text data => do d.addPieces expansion [] (← pieces data)
  | .verbatim data => some (d.addText (lineEnds true [] false (data.map Piece.plain)))
  | .comment data => some (d.add (.comment data))
  | .instruction target data => some (d.add (.instruction target data))

/-- The items of what an entity stands for. Its first tag may not be an end tag. -/
def entityItems (value : List Char) : Option (List Item) :=
  match (content value).result with
  | some (items, _) =>
    match items.find? Item.isTag with
    | some (.endTag _) => none
    | _ => some items
  | none => none

/-- What the entities stand for, with references in them to the given depth. -/
def expansionWithin (entities : List Entity) : Nat → Expansion
  | 0 => ⟨fun _ _ => none, fun _ _ => none⟩
  | depth + 1 =>
    let inner := expansionWithin entities depth
    { value := fun name before => do
        let written ← lookup entities name
        let (value, inside) ← valueOf inner (← pieces written) (← countReference before)
        return (value, afterReference before inside)
      content := fun name d => do
        let items ← entityItems (← lookup entities name)
        let start := { d with references := ← countReference d.references }
        let final ← items.foldlM (Draft.addItem inner) start
        return { final with references := afterReference d.references final.references } }

/-! ## Whole texts -/

/-- The items and entities of an XML text: one element, with comments and processing instructions
around it. -/
def document : Parser (List Item × List Entity) := do
  let _ ← optional (char '\ufeff')
  let _ ← optional declaration
  let before ← misc
  let type ← optional documentType
  let between ← misc
  let root ← element
  let after ← misc
  let (inType, entities) := type.getD ([], [])
  return (before ++ inType ++ between ++ root ++ after, entities)

/-- The top-level trees of an XML text, if it is well-formed. -/
def parse (text : String) : Option (List Tree) := do
  let (items, entities) ← document.whole? text.toList
  let draft ← items.foldlM (Draft.addItem (expansionWithin entities entityDepth)) .empty
  draft.trees

end XPath.Markup
