import XPath.Text.Quoted
/-! The nodes of a document: identifiers, qualified names, the kinds of node with their content,
and the links that place a node in a tree. -/
namespace XPath
set_option autoImplicit false

/-- The place of a node in its document's store. It stays valid when the node is removed from
the tree. -/
structure NodeId where
  index : Nat
  deriving DecidableEq, Repr

/-- How messages write an identifier. -/
def NodeId.describe (id : NodeId) : String := "NodeId(" ++ toString id.index ++ ")"

/-! ## Names -/

/-- A name with an optional part in front of a colon. -/
structure QName where
  qualifier : Option String
  localPart : String
  deriving DecidableEq, Repr

namespace QName

/-- A name without a qualifier. -/
def plain (localPart : String) : QName := ⟨none, localPart⟩

/-- Splits at the first colon, if there is text on both sides of it. -/
def ofText (text : String) : QName :=
  let s := text.toList
  match s.takeWhile (· != ':'), s.dropWhile (· != ':') with
  | before@(_ :: _), _ :: after@(_ :: _) => ⟨some (String.ofList before), String.ofList after⟩
  | _, _ => plain text

def text (name : QName) : String :=
  match name.qualifier with
  | some qualifier => qualifier ++ ":" ++ name.localPart
  | none => name.localPart

end QName

/-! ## Kinds -/

inductive NodeKind where
  | document
  | element (name : QName) (uri : Option String)
  | attribute (name : QName) (uri : Option String) (value : String)
  | text (data : String)
  | comment (data : String)
  | instruction (target data : String)
  deriving DecidableEq, Repr

namespace NodeKind

/-- Whether nodes of this kind may have children. -/
def isContainer : NodeKind → Bool
  | document => true
  | element .. => true
  | _ => false

def isElement : NodeKind → Bool
  | element .. => true
  | _ => false

def isAttribute : NodeKind → Bool
  | .attribute .. => true
  | _ => false

def isText : NodeKind → Bool
  | text _ => true
  | _ => false

def isComment : NodeKind → Bool
  | comment _ => true
  | _ => false

def isInstruction : NodeKind → Bool
  | instruction .. => true
  | _ => false

/-- The name of an element or attribute; the target of a processing instruction is a plain name. -/
def name? : NodeKind → Option QName
  | element name _ => some name
  | .attribute name _ _ => some name
  | instruction target _ => some (.plain target)
  | _ => none

/-- The namespace of an element or attribute. -/
def uri? : NodeKind → Option String
  | element _ uri => uri
  | .attribute _ uri _ => uri
  | _ => none

/-- The name as one text. -/
def qualifiedName? (kind : NodeKind) : Option String := kind.name?.map QName.text

/-- The same node with other character data, if it has any. -/
def withData? (data : String) : NodeKind → Option NodeKind
  | text _ => some (text data)
  | comment _ => some (comment data)
  | instruction target _ => some (instruction target data)
  | _ => none

private def describeOption : Option String → String
  | some s => "Some(" ++ Text.quoted s ++ ")"
  | none => "None"

private def describeName (name : QName) (uri : Option String) : String :=
  "prefix: " ++ describeOption name.qualifier ++ ", local_name: " ++ Text.quoted name.localPart ++
    ", namespace: " ++ describeOption uri

/-- How messages write a kind, with all of its content. -/
def describe : NodeKind → String
  | document => "Document"
  | element name uri => "Element \x7b " ++ describeName name uri ++ " \x7d"
  | .attribute name uri value =>
    "Attribute \x7b " ++ describeName name uri ++ ", value: " ++ Text.quoted value ++ " \x7d"
  | text data => "Text(" ++ Text.quoted data ++ ")"
  | comment data => "Comment(" ++ Text.quoted data ++ ")"
  | instruction target data =>
    "ProcessingInstruction \x7b target: " ++ Text.quoted target ++ ", data: " ++
      Text.quoted data ++ " \x7d"

end NodeKind

/-! ## Nodes -/

/-- A node with its links. Attributes have a parent but are not among its children. -/
structure Node where
  kind : NodeKind
  parent : Option NodeId
  children : List NodeId
  attributes : List NodeId
  deriving DecidableEq, Repr

/-- A node without links. -/
def Node.ofKind (kind : NodeKind) : Node := ⟨kind, none, [], []⟩

end XPath
