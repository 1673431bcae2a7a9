import XPath.Document.Basic
/-! Searches with a stack of nodes still to visit. Each step takes the uppermost node and puts its
children there; a search goes on until the stack is empty, or until the first find. -/
namespace XPath.Document
set_option autoImplicit false

/-- The nodes that pass a test among those on a stack and below them, as they are met in at most so
many steps. The children of a node are arranged before they are put on the stack. -/
def collectFrom (d : Document) (arrange : List NodeId → List NodeId) (test : NodeId → Bool) :
    Nat → List NodeId → List NodeId
  | 0, _ => []
  | _ + 1, [] => []
  | steps + 1, id :: stack =>
    let found := d.collectFrom arrange test steps (arrange (d.children id) ++ stack)
    if test id then id :: found else found

/-- The first node that passes a test among those on a stack and below them, if it is met in at most
so many steps. -/
def searchFrom (d : Document) (test : NodeId → Bool) : Nat → List NodeId → Option NodeId
  | 0, _ => none
  | _ + 1, [] => none
  | steps + 1, id :: stack =>
    if test id then some id else d.searchFrom test steps (d.children id ++ stack)

/-- The nodes below a node, as a walk meets them that starts with its children. -/
def collectBelow (d : Document) (id : NodeId) : List NodeId :=
  d.collectFrom (fun l => l) (fun _ => true) d.size (d.children id)

end XPath.Document
