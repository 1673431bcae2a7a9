import XPath.Markup.Token
/-! Namespaces in XML text: the bindings that attributes declare, the bindings in scope in an
element, and the namespaces that they give to names. -/
namespace XPath.Markup
set_option autoImplicit false

/-- The namespace of the prefix `xml`. -/
def xmlUri : String := "http://www.w3.org/XML/1998/namespace"

/-- The namespace of namespace declarations, which nothing else may use. -/
def xmlnsUri : String := "http://www.w3.org/2000/xmlns/"

/-- What a declaration binds; the default namespace has no prefix. -/
structure Binding where
  qualifier : Option String
  uri : String
  deriving DecidableEq, Repr

/-! ## Declarations -/

/-- Whether an attribute declares a namespace. -/
def isDeclaration (name : QName) : Bool :=
  name.qualifier == some "xmlns" || name.localPart == "xmlns"

/-- The declarations among the attributes of an element. The namespace of `xml` belongs to that
prefix alone and needs no declaration, and no prefix is declared twice. -/
def declarations : List (QName × String) → Option (List Binding)
  | [] => some []
  | (name, uri) :: rest => do
    let more ← declarations rest
    if !isDeclaration name then some more
    else if uri == xmlnsUri then none
    else if name.qualifier == some "xmlns" then
      if (name.localPart == "xml") != (uri == xmlUri) then none
      else if uri == xmlUri then some more
      else if more.any fun binding => binding.qualifier == some name.localPart then none
      else some (⟨some name.localPart, uri⟩ :: more)
    else if uri == xmlUri then none
    else some (⟨none, uri⟩ :: more)

/-- Adds a binding, unless one of its prefix is there. -/
def addBinding (bindings : List Binding) (binding : Binding) : List Binding :=
  if bindings.any fun other => other.qualifier == binding.qualifier then bindings
  else bindings ++ [binding]

/-- The bindings in scope: an element's own before the inherited ones that it does not replace.
Without declarations of its own an element shares its parent's. -/
def inScope (own inherited : List Binding) : List Binding :=
  if own.isEmpty then inherited else inherited.foldl addBinding own

def uriOf? (bindings : List Binding) (qualifier : Option String) : Option String :=
  (bindings.find? fun binding => binding.qualifier == qualifier).map Binding.uri

/-- The prefix of the first binding in scope to a namespace. -/
def qualifierFor? (bindings : List Binding) (uri : String) : Option String :=
  if uri == xmlUri then some "xml"
  else (bindings.find? fun binding => binding.uri == uri).bind Binding.qualifier

/-! ## Names -/

/-- An attribute with the namespace of its name. -/
structure TreeAttribute where
  name : QName
  uri : Option String
  value : String
  deriving DecidableEq, Repr

/-- The namespace of an element name. A prefix has to be declared. -/
def elementUri (bindings : List Binding) (name : QName) : Option (Option String) :=
  match uriOf? bindings name.qualifier, name.qualifier with
  | some uri, _ => some (some uri)
  | none, none => some none
  | none, some _ => none

/-- The namespace of an attribute name. Names without a prefix have none. -/
def attributeUri (bindings : List Binding) (name : QName) : Option (Option String) :=
  match name.qualifier with
  | none => some none
  | some "xml" => some (some xmlUri)
  | some qualifier => (uriOf? bindings (some qualifier)).map some

/-- The attributes of an element without the declarations. No two of them have the same name in the
same namespace. -/
def resolveAttributes (bindings : List Binding) :
    List (QName × String) → Option (List TreeAttribute)
  | [] => some []
  | (name, value) :: rest => do
    let more ← resolveAttributes bindings rest
    if isDeclaration name then some more
    else
      let uri ← attributeUri bindings name
      if more.any fun other => other.uri == uri && other.name.localPart == name.localPart then none
      else some (⟨name, uri, value⟩ :: more)

end XPath.Markup
