import XPath.Markup.Binding
import XPath.Markup.Item
/-! XML trees with namespaces, and trees under construction: every name stands as it is written and
has the namespace that the declarations in scope give it, and every element knows those
declarations. -/
namespace XPath.Markup
set_option autoImplicit false

inductive Tree where
  | element (name : QName) (uri : Option String) (bindings : List Binding)
      (attributes : List TreeAttribute) (children : List Tree)
  | text (data : String)
  | comment (data : String)
  | instruction (target data : String)

def Tree.isElement : Tree → Bool
  | element .. => true
  | _ => false

/-- An element whose end tag has not been met. -/
structure OpenElement where
  name : QName
  uri : Option String
  bindings : List Binding
  attributes : List TreeAttribute
  /-- What stands before the element in its parent, last first. -/
  before : List Tree

/-- A tree under construction. -/
structure Draft where
  /-- The open elements, innermost first. -/
  path : List OpenElement
  /-- What the innermost open element holds so far, last first. -/
  content : List Tree
  /-- Whether more text belongs to the text that was added last. -/
  inText : Bool
  /-- The attributes of start tags without an end, which go to the next tag. -/
  pending : List (QName × String)
  /-- The number of entities referred to inside the outermost entity; none outside of entities. -/
  references : Option Nat

namespace Draft

def empty : Draft := ⟨[], [], false, [], none⟩

/-- The bindings in scope in the innermost open element. -/
def bindings (d : Draft) : List Binding := (d.path.head?.map OpenElement.bindings).getD []

def add (d : Draft) (tree : Tree) : Draft :=
  { d with content := tree :: d.content, inText := false }

/-- Adds text, which joins a text directly before it. -/
def addText (d : Draft) (data : List Char) : Draft :=
  let data := String.ofList data
  match d.inText, d.content with
  | true, .text before :: rest => { d with content := .text (before ++ data) :: rest }
  | _, _ => { d with content := .text data :: d.content, inText := true }

/-! ## Tags -/

/-- The bindings and attributes that the pending attributes make. -/
def resolve (d : Draft) : Option (List Binding × List TreeAttribute) := do
  let bindings := inScope (← declarations d.pending) d.bindings
  return (bindings, ← resolveAttributes bindings d.pending)

def startTag (d : Draft) (name : QName) (attributes : List (QName × String)) (tagEnd : TagEnd) :
    Option Draft := do
  let d := { d with pending := d.pending ++ attributes, inText := false }
  match tagEnd with
  | .missing => do
    let _ ← declarations d.pending
    return d
  | .empty => do
    let (bindings, attributes) ← d.resolve
    let uri ← elementUri bindings name
    return { d.add (.element name uri bindings attributes []) with pending := [] }
  | .opening => do
    let (bindings, attributes) ← d.resolve
    let uri ← elementUri bindings name
    let element := OpenElement.mk name uri bindings attributes d.content
    return { d with path := element :: d.path, content := [], pending := [] }

/-- Closes the innermost open element. There has to be one, and its name has to be that of the
tag. -/
def endTag (d : Draft) (name : QName) : Option Draft := do
  let _ ← d.resolve
  match d.path with
  | [] => none
  | element :: path =>
    if element.name != name then none
    else
      let tree := Tree.element element.name element.uri element.bindings element.attributes
        d.content.reverse
      return { d with path, content := tree :: element.before, pending := [], inText := false }

/-- The finished trees. No element may be open, and there has to be one. -/
def trees (d : Draft) : Option (List Tree) :=
  if d.path.isEmpty && d.content.any Tree.isElement then some d.content.reverse else none

end Draft
end XPath.Markup
