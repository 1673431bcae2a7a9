import XPath.Document.Build
/-! Edits as data, and the documents that callers can have: a new one or one that was built from
trees, after any edits. An edit that fails leaves its document as it was. -/
namespace XPath
set_option autoImplicit false

inductive Edit where
  | createElement (name : String) (uri : Option String)
  | createText (data : String)
  | createComment (data : String)
  | createInstruction (target data : String)
  | appendChild (parent child : NodeId)
  | insertBefore (parent child : NodeId) (reference : Option NodeId)
  | removeChild (parent child : NodeId)
  | setAttribute (element : NodeId) (name : String) (uri : Option String) (value : String)
  | removeAttribute (element : NodeId) (name : String)
  | setText (id : NodeId) (data : String)
  deriving DecidableEq, Repr

namespace Edit

def run (d : Document) : Edit → Except DocumentError Document
  | createElement name uri => .ok (d.createElement name uri).1
  | createText data => .ok (d.createText data).1
  | createComment data => .ok (d.createComment data).1
  | createInstruction target data => .ok (d.createInstruction target data).1
  | appendChild parent child => d.appendChild parent child
  | insertBefore parent child reference => d.insertBefore parent child reference
  | removeChild parent child => d.removeChild parent child
  | setAttribute element name uri value => do return (← d.setAttribute element name uri value).1
  | removeAttribute element name => do return (← d.removeAttribute element name).1
  | setText id data => d.setText id data

/-- The document after an edit. -/
def after (d : Document) (edit : Edit) : Document :=
  match edit.run d with
  | .ok changed => changed
  | .error _ => d

/-- The document after edits, one after the other. -/
def afterAll (d : Document) (edits : List Edit) : Document := edits.foldl after d

end Edit

/-- The documents that callers can have. The trees of an imported document may be any that a reader
could make of a text. -/
inductive Document.Reachable : Document → Prop
  | empty : Reachable .empty
  | imported {trees : List Markup.Tree} {d : Document} :
    addTrees root .empty trees = .ok d → Reachable d
  | edited {d : Document} (edit : Edit) : Reachable d → Reachable (edit.after d)

end XPath
