import XPath.Document.Build
import XPath.Document.Order
/-! The document that trees describe, laid out at once: every node with all of its links, in
document order. An element comes before its attributes, and these before the subtrees of its
children. -/
namespace XPath
set_option autoImplicit false

namespace Markup

mutual

/-- The number of nodes of a tree. Attributes are nodes, too. -/
def Tree.size : Tree → Nat
  | .element _ _ _ attributes children => 1 + attributes.length + sizeOfAll children
  | .text _ => 1
  | .comment _ => 1
  | .instruction _ _ => 1

def sizeOfAll : List Tree → Nat
  | [] => 0
  | tree :: rest => tree.size + sizeOfAll rest

end

end Markup

namespace Document

open Markup

/-- Consecutive identifiers. -/
def idsFrom (start count : Nat) : List NodeId := (List.range' start count).map NodeId.mk

/-- The identifiers of the uppermost nodes of trees that are laid out one after the other. -/
def topsFrom : Nat → List Tree → List NodeId
  | _, [] => []
  | start, tree :: rest => ⟨start⟩ :: topsFrom (start + tree.size) rest

/-- The node of an attribute. -/
def attributeNode (element : NodeId) (bindings : List Binding) (attr : TreeAttribute) : Node :=
  ⟨.attribute (nameIn bindings attr.uri attr.name.localPart) attr.uri attr.value, some element,
    [], []⟩

mutual

/-- The nodes of a tree whose uppermost node has the number `start` and the given parent. -/
def nodesOf (parent : NodeId) (start : Nat) : Tree → List Node
  | .element name uri bindings attributes children =>
    let content := start + 1 + attributes.length
    ⟨.element (nameIn bindings uri name.localPart) uri, some parent, topsFrom content children,
        idsFrom (start + 1) attributes.length⟩ ::
      (attributes.map (attributeNode ⟨start⟩ bindings) ++ nodesOfAll ⟨start⟩ content children)
  | .text data => [⟨.text data, some parent, [], []⟩]
  | .comment data => [⟨.comment data, some parent, [], []⟩]
  | .instruction target data => [⟨.instruction target data, some parent, [], []⟩]

def nodesOfAll (parent : NodeId) (start : Nat) : List Tree → List Node
  | [] => []
  | tree :: rest => nodesOf parent start tree ++ nodesOfAll parent (start + tree.size) rest

end

/-- Adds finished nodes, the uppermost of which become the last children of `parent`. -/
def graft (d : Document) (parent : NodeId) (tops : List NodeId) (nodes : List Node) : Document :=
  let d := d.update parent fun node => { node with children := node.children ++ tops }
  { d with nodes := d.nodes ++ nodes.toArray }

/-- The document with the trees as its content. -/
def ofTrees (trees : List Tree) : Document :=
  empty.graft root (topsFrom 1 trees) (nodesOfAll root 1 trees)

mutual

/-- Whether a tree stands under a node: both are of the same kind with the same names and data, have
the same attributes in the same order, and the same children in the same order. -/
def Depicts (d : Document) (id : NodeId) : Tree → Prop
  | .element name uri bindings attributes children =>
    d.kind? id = some (.element (nameIn bindings uri name.localPart) uri) ∧
      (d.attributes id).map d.node? = attributes.map (some ∘ attributeNode id bindings) ∧
      d.DepictsAll (d.children id) children
  | .text data => d.node? id = some ⟨.text data, d.parent? id, [], []⟩
  | .comment data => d.node? id = some ⟨.comment data, d.parent? id, [], []⟩
  | .instruction target data => d.node? id = some ⟨.instruction target data, d.parent? id, [], []⟩

def DepictsAll (d : Document) (ids : List NodeId) : List Tree → Prop
  | [] => ids = []
  | tree :: rest => ∃ id others, ids = id :: others ∧ d.Depicts id tree ∧ d.DepictsAll others rest

end

end Document
end XPath
