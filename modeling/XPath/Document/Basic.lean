import XPath.Document.Node
/-! Documents: a growing store of nodes linked into trees, and a count of the changes made to the
links. Node 0 is the document node. Nodes that are not yet in its tree, or no longer, are the tops
of trees of their own. -/
namespace XPath
set_option autoImplicit false

structure Document where
  nodes : Array Node
  /-- The number of changes to the links since the document was made. -/
  generation : Nat
  deriving DecidableEq, Repr

namespace Document

/-- A document with nothing but its document node. -/
def empty : Document := ⟨#[.ofKind .document], 0⟩

/-- The document node. -/
def root : NodeId := ⟨0⟩

def size (d : Document) : Nat := d.nodes.size

/-- All identifiers, in order of creation. -/
def ids (d : Document) : List NodeId := (List.range d.size).map NodeId.mk

/-! ## Links and content -/

def node? (d : Document) (id : NodeId) : Option Node := d.nodes[id.index]?

def kind? (d : Document) (id : NodeId) : Option NodeKind := (d.node? id).map Node.kind

def parent? (d : Document) (id : NodeId) : Option NodeId := (d.node? id).bind Node.parent

def children (d : Document) (id : NodeId) : List NodeId := (d.node? id).elim [] Node.children

def attributes (d : Document) (id : NodeId) : List NodeId := (d.node? id).elim [] Node.attributes

def isElement (d : Document) (id : NodeId) : Bool := (d.kind? id).any NodeKind.isElement

def isAttribute (d : Document) (id : NodeId) : Bool := (d.kind? id).any NodeKind.isAttribute

def name? (d : Document) (id : NodeId) : Option QName := (d.kind? id).bind NodeKind.name?

def uri? (d : Document) (id : NodeId) : Option String := (d.kind? id).bind NodeKind.uri?

/-! ## Walks

No walk along the links takes more steps than there are nodes, since links never form a cycle. -/

/-- The chain of parents, at most `steps` long, nearest first. -/
def ancestorsWithin (d : Document) : Nat → NodeId → List NodeId
  | 0, _ => []
  | steps + 1, id =>
    match d.parent? id with
    | some parent => parent :: d.ancestorsWithin steps parent
    | none => []

/-- The chain of parents, nearest first. -/
def ancestors (d : Document) (id : NodeId) : List NodeId := d.ancestorsWithin d.size id

/-- The topmost ancestor; a node without a parent is its own. -/
def top (d : Document) (id : NodeId) : NodeId := (d.ancestors id).getLastD id

/-- A node and all nodes below it, children after their parent, to a depth of `levels`. -/
def subtreeWithin (d : Document) : Nat → NodeId → List NodeId
  | 0, _ => []
  | levels + 1, id => id :: (d.children id).flatMap (d.subtreeWithin levels)

/-- A node and all nodes below it except attributes, in document order. -/
def subtree (d : Document) (id : NodeId) : List NodeId := d.subtreeWithin d.size id

/-- All nodes below a node except attributes, in document order. -/
def descendants (d : Document) (id : NodeId) : List NodeId := (d.children id).flatMap d.subtree

end Document
end XPath
