import XPath.Document.Edit
import XPath.Markup.Tree
/-! Building documents from trees. Nodes are numbered in document order, and building them does not
count as a change. Names get the prefix of the first declaration in scope that binds their
namespace. Which trees a text stands for is the business of a reader; nothing here depends on what
it accepts. -/
namespace XPath.Document
set_option autoImplicit false

open Markup

/-- A name in a namespace, with the prefix that stands for it. -/
def nameIn (bindings : List Binding) (uri : Option String) (localPart : String) : QName :=
  ⟨uri.bind (qualifierFor? bindings), localPart⟩

/-- Adds the attributes of an element. -/
def addAttributes (element : NodeId) (bindings : List Binding) (d : Document)
    (attributes : List TreeAttribute) : Except DocumentError Document :=
  attributes.foldlM (fun d attr => do
    let name := nameIn bindings attr.uri attr.name.localPart
    return (← d.putAttribute element name.text attr.uri attr.value).1) d

mutual

/-- Adds a tree as the last child of `parent`. -/
def addTree (parent : NodeId) (d : Document) : Tree → Except DocumentError Document
  | .element name uri bindings attributes children => do
    let (d, id) := d.createChild parent (.element (nameIn bindings uri name.localPart) uri)
    let d ← d.addAttributes id bindings attributes
    addTrees id d children
  | .text data => .ok (d.createChild parent (.text data)).1
  | .comment data => .ok (d.createChild parent (.comment data)).1
  | .instruction target data => .ok (d.createChild parent (.instruction target data)).1

def addTrees (parent : NodeId) (d : Document) : List Tree → Except DocumentError Document
  | [] => .ok d
  | tree :: rest => do addTrees parent (← addTree parent d tree) rest

end

/-- The document that a text describes, if the reader makes trees of it. -/
def readWith? (reader : String → Option (List Tree)) (text : String) : Option Document := do
  let trees ← reader text
  (addTrees root .empty trees).toOption

end XPath.Document
