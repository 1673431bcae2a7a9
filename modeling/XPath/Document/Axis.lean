import XPath.Axis
import XPath.Document.Basic
/-! The nodes on an axis, in the order in which positions count: document order on forward axes,
and nearest first on reverse ones. -/
namespace XPath
set_option autoImplicit false

namespace Document

/-! ## Siblings

Attributes have a parent but no siblings. -/

/-- The siblings after a node. -/
def followingSiblings (d : Document) (id : NodeId) : List NodeId :=
  if d.isAttribute id then []
  else
    match d.parent? id with
    | some parent => ((d.children parent).dropWhile (· != id)).drop 1
    | none => []

/-- The siblings before a node, nearest first. -/
def precedingSiblings (d : Document) (id : NodeId) : List NodeId :=
  if d.isAttribute id then []
  else
    match d.parent? id with
    | some parent => ((d.children parent).takeWhile (· != id)).reverse
    | none => []

/-! ## Everything after or before -/

/-- The subtrees of the siblings after a node, after its parent, and so on up. -/
def followingFrom (d : Document) (id : NodeId) : List NodeId :=
  (id :: d.ancestors id).flatMap fun node => (d.followingSiblings node).flatMap d.subtree

/-- The subtrees of the siblings before a node, before its parent, and so on up, each backwards. -/
def precedingFrom (d : Document) (id : NodeId) : List NodeId :=
  (id :: d.ancestors id).flatMap fun node =>
    (d.precedingSiblings node).flatMap fun sibling => (d.subtree sibling).reverse

/-- All nodes after a node except its descendants and attributes. The content of an element comes
after its attributes. -/
def following (d : Document) (id : NodeId) : List NodeId :=
  if d.isAttribute id then
    match d.parent? id with
    | some owner => d.descendants owner ++ d.followingFrom owner
    | none => []
  else d.followingFrom id

/-- All nodes before a node except its ancestors and attributes, nearest first. What comes before
an attribute comes before its element. -/
def preceding (d : Document) (id : NodeId) : List NodeId :=
  if d.isAttribute id then
    match d.parent? id with
    | some owner => d.precedingFrom owner
    | none => []
  else d.precedingFrom id

end Document

/-- The nodes on an axis. Documents have no namespace nodes. -/
def Axis.nodes (axis : Axis) (d : Document) (id : NodeId) : List NodeId :=
  match axis with
  | child => d.children id
  | descendantOrSelf => id :: d.descendants id
  | descendant => d.descendants id
  | .attribute => d.attributes id
  | namespaceNode => []
  | parent => (d.parent? id).toList
  | ancestorOrSelf => id :: d.ancestors id
  | ancestor => d.ancestors id
  | self => [id]
  | followingSibling => d.followingSiblings id
  | precedingSibling => d.precedingSiblings id
  | following => d.following id
  | preceding => d.preceding id

end XPath
