/-! The thirteen axes: directions in which a step moves from a node. -/
namespace XPath
set_option autoImplicit false

inductive Axis where
  | child
  | descendantOrSelf
  | descendant
  | attribute
  | namespaceNode
  | parent
  | ancestorOrSelf
  | ancestor
  | self
  | followingSibling
  | precedingSibling
  | following
  | preceding
  deriving DecidableEq, Repr

namespace Axis

/-- Every axis; of two names that begin alike the longer comes first. -/
def all : List Axis :=
  [child, descendantOrSelf, descendant, .attribute, namespaceNode, parent, ancestorOrSelf, ancestor,
    self, followingSibling, precedingSibling, following, preceding]

def name : Axis → String
  | child => "child"
  | descendantOrSelf => "descendant-or-self"
  | descendant => "descendant"
  | .attribute => "attribute"
  | namespaceNode => "namespace"
  | parent => "parent"
  | ancestorOrSelf => "ancestor-or-self"
  | ancestor => "ancestor"
  | self => "self"
  | followingSibling => "following-sibling"
  | precedingSibling => "preceding-sibling"
  | following => "following"
  | preceding => "preceding"

/-- Whether positions along the axis count against document order. -/
def isReverse : Axis → Bool
  | ancestor => true
  | ancestorOrSelf => true
  | preceding => true
  | precedingSibling => true
  | _ => false

theorem mem_all (axis : Axis) : axis ∈ all := by cases axis <;> decide

end Axis
end XPath
