import XPath.Document.Basic
/-! What the nodes of a document say: string values, attribute values by name, and elements found
by name or identifier. -/
namespace XPath.Document
set_option autoImplicit false

/-! ## String values -/

/-- The text below a node: the data of its text children and the text below its element children,
in order. -/
def textWithin (d : Document) : Nat → NodeId → String
  | 0, _ => ""
  | levels + 1, id =>
    String.join ((d.children id).map fun child =>
      match d.kind? child with
      | some (.text data) => data
      | some (.element ..) => d.textWithin levels child
      | _ => "")

/-- The string value: the text below an element or the document, and a node's own data else. -/
def stringValue (d : Document) (id : NodeId) : String :=
  match d.kind? id with
  | some .document => d.textWithin d.size id
  | some (.element ..) => d.textWithin d.size id
  | some (.attribute _ _ value) => value
  | some (.text data) => data
  | some (.comment data) => data
  | some (.instruction _ data) => data
  | none => ""

/-! ## Attributes and elements by name -/

/-- The first attribute node of an element whose written name is `name`. -/
def attributeNode? (d : Document) (element : NodeId) (name : String) : Option NodeId :=
  (d.attributes element).find? fun id => (d.kind? id).bind NodeKind.qualifiedName? == some name

/-- The value of the attribute with the given written name. -/
def attribute? (d : Document) (element : NodeId) (name : String) : Option String :=
  (d.attributeNode? element name).bind fun id =>
    match d.kind? id with
    | some (.attribute _ _ value) => some value
    | _ => none

/-- The first element child of the document node. -/
def documentElement? (d : Document) : Option NodeId := (d.children root).find? d.isElement

/-- The first element of the document's tree, in document order, with this value of `id`. -/
def elementById? (d : Document) (id : String) : Option NodeId :=
  (d.subtree root).find? fun node => d.isElement node && d.attribute? node "id" == some id

end XPath.Document
