import XPath.Document.Content
import XPath.Document.Error
/-! Changing a document. An edit either fails and leaves the document as it was, or returns the
changed document. Every change to the links raises the generation by one; new nodes without links,
new values of existing attributes and new character data do not. -/
namespace XPath
set_option autoImplicit false

namespace Document

/-! ## Changes to single nodes -/

def update (d : Document) (id : NodeId) (f : Node → Node) : Document :=
  { d with nodes := d.nodes.modify id.index f }

/-- Counts a change to the links. -/
def changed (d : Document) : Document := { d with generation := d.generation + 1 }

/-- Adds a node without links. -/
def create (d : Document) (kind : NodeKind) : Document × NodeId :=
  ({ d with nodes := d.nodes.push (.ofKind kind) }, ⟨d.size⟩)

/-- Adds a node as the last child of `parent`. -/
def createChild (d : Document) (parent : NodeId) (kind : NodeKind) : Document × NodeId :=
  let (d, id) := d.create kind
  let d := d.update id fun node => { node with parent := some parent }
  (d.update parent fun node => { node with children := node.children ++ [id] }, id)

/-- Adds a node as the last attribute of `element`. -/
def createAttribute (d : Document) (element : NodeId) (kind : NodeKind) : Document × NodeId :=
  let (d, id) := d.create kind
  let d := d.update id fun node => { node with parent := some element }
  (d.update element fun node => { node with attributes := node.attributes ++ [id] }, id)

/-- Takes a child from its parent. -/
def detach (d : Document) (child : NodeId) : Document :=
  match d.parent? child with
  | some parent =>
    let d := d.update child fun node => { node with parent := none }
    d.update parent fun node => { node with children := node.children.filter (· != child) }
  | none => d

/-! ## New nodes -/

def createElement (d : Document) (name : String) (uri : Option String) : Document × NodeId :=
  d.create (.element (.ofText name) uri)

def createText (d : Document) (data : String) : Document × NodeId := d.create (.text data)

def createComment (d : Document) (data : String) : Document × NodeId := d.create (.comment data)

def createInstruction (d : Document) (target data : String) : Document × NodeId :=
  d.create (.instruction target data)

/-! ## Children -/

/-- Whether `child` may become a child of `parent`: the parent takes children, the child is of a
kind that can be one, and it is neither the parent nor above it. -/
def checkInsertion (d : Document) (parent child : NodeId) : Except DocumentError Unit := do
  let parentNode ← d.node parent
  let childNode ← d.node child
  if !parentNode.kind.isContainer then throw (.notContainer parent)
  if childNode.kind == .document || childNode.kind.isAttribute then throw (.notInsertable child)
  if (parent :: d.ancestors parent).contains child then throw (.ancestor child parent)

def checkChild (d : Document) (parent child : NodeId) : Except DocumentError Unit := do
  let node ← d.node child
  if node.parent != some parent || node.kind.isAttribute then throw (.notChild child parent)

/-- Puts `child` in front of `reference`, or at the end if that is not a member. -/
def placeBefore (siblings : List NodeId) (child : NodeId) : Option NodeId → List NodeId
  | some reference =>
    siblings.takeWhile (· != reference) ++ child :: siblings.dropWhile (· != reference)
  | none => siblings ++ [child]

/-- Moves `child` under `parent`, in front of `reference` or to the end. A node placed in front of
itself stays where it is, which is no change. -/
def insertBefore (d : Document) (parent child : NodeId) (reference : Option NodeId) :
    Except DocumentError Document := do
  d.checkInsertion parent child
  if let some sibling := reference then d.checkChild parent sibling
  if reference = some child then return d
  let d := d.detach child
  let d := d.update parent fun node =>
    { node with children := placeBefore node.children child reference }
  let d := d.update child fun node => { node with parent := some parent }
  return d.changed

def appendChild (d : Document) (parent child : NodeId) : Except DocumentError Document :=
  d.insertBefore parent child none

def removeChild (d : Document) (parent child : NodeId) : Except DocumentError Document := do
  let _ ← d.node parent
  d.checkChild parent child
  return (d.detach child).changed

/-! ## Attributes -/

/-- The attribute of an element with this name and namespace. -/
def sameAttribute? (d : Document) (element : NodeId) (name : QName) (uri : Option String) :
    Option NodeId :=
  (d.attributes element).find? fun id =>
    match d.kind? id with
    | some (.attribute otherName otherUri _) => otherName == name && otherUri == uri
    | _ => false

/-- Gives the attribute with this name and namespace a value, adding it if the element has none.
The flag tells whether it was added. -/
def putAttribute (d : Document) (element : NodeId) (name : String) (uri : Option String)
    (value : String) : Except DocumentError (Document × NodeId × Bool) := do
  let node ← d.node element
  if !node.kind.isElement then throw (.notElement element)
  let name := QName.ofText name
  match d.sameAttribute? element name uri with
  | some id =>
    return (d.update id fun node => { node with kind := .attribute name uri value }, id, false)
  | none =>
    let (d, id) := d.createAttribute element (.attribute name uri value)
    return (d, id, true)

def setAttribute (d : Document) (element : NodeId) (name : String) (uri : Option String)
    (value : String) : Except DocumentError (Document × NodeId) := do
  let (d, id, added) ← d.putAttribute element name uri value
  return (if added then d.changed else d, id)

/-- Removes the first attribute with the given written name. -/
def removeAttribute (d : Document) (element : NodeId) (name : String) :
    Except DocumentError (Document × Option NodeId) := do
  let _ ← d.node element
  match d.attributeNode? element name with
  | some id =>
    let d := d.update element fun node =>
      { node with attributes := node.attributes.filter (· != id) }
    let d := d.update id fun node => { node with parent := none }
    return (d.changed, some id)
  | none => return (d, none)

/-! ## Character data -/

/-- Replaces the data of a text, comment or processing instruction. -/
def setText (d : Document) (id : NodeId) (data : String) : Except DocumentError Document := do
  let node ← d.node id
  match node.kind.withData? data with
  | some kind => return d.update id fun node => { node with kind }
  | none => throw (.noData node.kind)

end Document
end XPath
