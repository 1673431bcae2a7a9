import XPath.Document.Basic
/-! Document order: an element comes before its attributes, these before the children's subtrees,
and siblings follow one another. The document's own tree comes first, then every other tree by the
identifier of its top. -/
namespace XPath.Document
set_option autoImplicit false

/-- A node, its attributes and everything below it, to a depth of `levels`. -/
def preorderWithin (d : Document) : Nat → NodeId → List NodeId
  | 0, _ => []
  | levels + 1, id =>
    id :: (d.attributes id ++ (d.children id).flatMap (d.preorderWithin levels))

/-- A node, its attributes and everything below it, in document order. -/
def preorder (d : Document) (id : NodeId) : List NodeId := d.preorderWithin d.size id

/-- The nodes without a parent, in order of creation. -/
def tops (d : Document) : List NodeId := d.ids.filter fun id => (d.parent? id).isNone

/-- All nodes in document order. -/
def order (d : Document) : List NodeId := d.tops.flatMap d.preorder

/-- The position of a node in document order. -/
def orderIndex (d : Document) (id : NodeId) : Nat := d.order.idxOf id

/-- The members of a list in document order, each once. -/
def inOrder (d : Document) (ids : List NodeId) : List NodeId := d.order.filter ids.contains

/-- The member of a list that is first in document order. -/
def first? (d : Document) (ids : List NodeId) : Option NodeId := d.order.find? ids.contains

end XPath.Document
