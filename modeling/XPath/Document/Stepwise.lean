import XPath.Document.History
/-! Edits as callers see them happen: one write after the other to one document. What was written
before a failure stays, so that an edit which fails has changed nothing only if all its checks come
before its first write. -/
namespace XPath
set_option autoImplicit false

/-- Reads and writes of a document, up to a failure. -/
abbrev Writer := EStateM DocumentError Document

namespace Writer

/-- Looks at the document as it is now. -/
def check {α : Type} (read : Document → Except DocumentError α) : Writer α := fun d =>
  match read d with
  | .ok a => .ok a d
  | .error e => .error e d

def write (f : Document → Document) : Writer Unit := modify f

def insertBefore (parent child : NodeId) (reference : Option NodeId) : Writer Unit := do
  check (·.checkInsertion parent child)
  if let some sibling := reference then check (·.checkChild parent sibling)
  if reference = some child then return
  write (·.detach child)
  write (·.update parent fun node =>
    { node with children := Document.placeBefore node.children child reference })
  write (·.update child fun node => { node with parent := some parent })
  write Document.changed

def removeChild (parent child : NodeId) : Writer Unit := do
  let _ ← check (·.node parent)
  check (·.checkChild parent child)
  write (·.detach child)
  write Document.changed

def setAttribute (element : NodeId) (name : String) (uri : Option String) (value : String) :
    Writer Unit := do
  let node ← check (·.node element)
  if !node.kind.isElement then throw (.notElement element)
  let kind := NodeKind.attribute (.ofText name) uri value
  match (← get).sameAttribute? element (.ofText name) uri with
  | some id => write (·.update id fun node => { node with kind })
  | none =>
    write fun d => (d.createAttribute element kind).1
    write Document.changed

def removeAttribute (element : NodeId) (name : String) : Writer Unit := do
  let _ ← check (·.node element)
  match (← get).attributeNode? element name with
  | some id =>
    write (·.update element fun node =>
      { node with attributes := node.attributes.filter (· != id) })
    write (·.update id fun node => { node with parent := none })
    write Document.changed
  | none => return

def setText (id : NodeId) (data : String) : Writer Unit := do
  let node ← check (·.node id)
  match node.kind.withData? data with
  | some kind => write (·.update id fun node => { node with kind })
  | none => throw (.noData node.kind)

end Writer

def Edit.perform : Edit → Writer Unit
  | createElement name uri => .write fun d => (d.createElement name uri).1
  | createText data => .write fun d => (d.createText data).1
  | createComment data => .write fun d => (d.createComment data).1
  | createInstruction target data => .write fun d => (d.createInstruction target data).1
  | appendChild parent child => .insertBefore parent child none
  | insertBefore parent child reference => .insertBefore parent child reference
  | removeChild parent child => .removeChild parent child
  | setAttribute element name uri value => .setAttribute element name uri value
  | removeAttribute element name => .removeAttribute element name
  | setText id data => .setText id data

end XPath
