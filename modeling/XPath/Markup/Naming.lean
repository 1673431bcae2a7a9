import XPath.Markup.Tree
/-! What the elements of a tree have to satisfy, and the conditions that namespaces put on names: a
prefix and a local name are never empty and hold no colon, and no two attributes of an element have
the same name in the same namespace. -/
namespace XPath
set_option autoImplicit false

/-- A prefix or a local name. -/
def IsNamePart (s : String) : Prop := s ≠ "" ∧ ':' ∉ s.toList

instance : DecidablePred IsNamePart := fun s =>
  inferInstanceAs (Decidable (s ≠ "" ∧ ':' ∉ s.toList))

/-- A name of which every part is one. -/
def QName.IsProper (name : QName) : Prop :=
  IsNamePart name.localPart ∧ ∀ qualifier ∈ name.qualifier, IsNamePart qualifier

namespace Markup

mutual

/-- `P` holds of the name, namespace, bindings and attributes of every element in a tree. -/
def Tree.Everywhere (P : QName → Option String → List Binding → List TreeAttribute → Prop) :
    Tree → Prop
  | .element name uri bindings attributes children =>
    P name uri bindings attributes ∧ EverywhereIn P children
  | .text _ => True
  | .comment _ => True
  | .instruction _ _ => True

def EverywhereIn (P : QName → Option String → List Binding → List TreeAttribute → Prop) :
    List Tree → Prop
  | [] => True
  | tree :: rest => tree.Everywhere P ∧ EverywhereIn P rest

end

/-- Attributes that differ in their namespaces or in their local names. -/
def Distinct (attributes : List TreeAttribute) : Prop :=
  attributes.Pairwise fun a b => ¬ (a.uri = b.uri ∧ a.name.localPart = b.name.localPart)

structure WellNamed (name : QName) (uri : Option String) (bindings : List Binding)
    (attributes : List TreeAttribute) : Prop where
  isNamePart : IsNamePart name.localPart
  isNamePart_of_binding : ∀ binding ∈ bindings, ∀ qualifier ∈ binding.qualifier,
    IsNamePart qualifier
  isNamePart_of_attribute : ∀ attr ∈ attributes, IsNamePart attr.name.localPart
  distinct : Distinct attributes

/-- A binding that a declaration can make. -/
structure Binding.IsProper (binding : Binding) : Prop where
  isNamePart : ∀ qualifier ∈ binding.qualifier, IsNamePart qualifier
  uri_ne : binding.uri ≠ xmlUri

/-- All names are proper and have the namespaces that the bindings give them. -/
structure Resolved (name : QName) (uri : Option String) (bindings : List Binding)
    (attributes : List TreeAttribute) : Prop where
  isProper : name.IsProper
  elementUri_eq : elementUri bindings name = some uri
  isProper_of_binding : ∀ binding ∈ bindings, binding.IsProper
  isProper_of_attribute : ∀ attr ∈ attributes, attr.name.IsProper
  attributeUri_eq : ∀ attr ∈ attributes, attributeUri bindings attr.name = some attr.uri
  distinct : Distinct attributes

/-! ## Names as they are written -/

/-- A name as it is written, its namespace, and the bindings in scope where it stands. -/
structure WrittenName where
  name : QName
  uri : Option String
  bindings : List Binding
  deriving DecidableEq, Repr

mutual

/-- The names with which the nodes of a tree are written, in document order. Only elements and
attributes have one. -/
def Tree.names : Tree → List (Option WrittenName)
  | .element name uri bindings attributes children =>
    some ⟨name, uri, bindings⟩ ::
      (attributes.map (fun attr => some ⟨attr.name, attr.uri, bindings⟩) ++ namesOfAll children)
  | .text _ => [none]
  | .comment _ => [none]
  | .instruction _ _ => [none]

def namesOfAll : List Tree → List (Option WrittenName)
  | [] => []
  | tree :: rest => tree.names ++ namesOfAll rest

end

namespace WrittenName

/-- Whether the first binding in scope to the namespace of a name is the one that the name is
written with. The namespace of `xml` needs no binding. -/
def IsKept (written : WrittenName) : Prop :=
  ∀ uri, written.uri = some uri → uri ≠ xmlUri →
    (written.bindings.find? fun binding => binding.uri == uri).map Binding.qualifier =
      some written.name.qualifier

end WrittenName

end Markup
end XPath
