import XPath.Document.History
import XPath.Document.Order
/-! Positions in document order as a table. One walk numbers all nodes, and the table is kept until
a new node or a changed link makes it wrong. -/
namespace XPath
set_option autoImplicit false

/-- The positions given so far, by identifier, and the next one to give. -/
structure Numbering where
  table : Array Nat
  next : Nat
  deriving DecidableEq, Repr

def Numbering.give (n : Numbering) (id : NodeId) : Numbering :=
  ⟨n.table.setIfInBounds id.index n.next, n.next + 1⟩

namespace Document

/-- Numbers the trees that hang from the nodes on a stack, in at most so many steps. Each step takes
the uppermost node, numbers it and its attributes, and puts its children on the stack. -/
def numberFrom (d : Document) : Nat → Numbering → List NodeId → Numbering
  | 0, n, _ => n
  | _ + 1, n, [] => n
  | steps + 1, n, id :: stack =>
    d.numberFrom steps ((d.attributes id).foldl .give (n.give id)) (d.children id ++ stack)

/-- The position of every node, by identifier. -/
def positions (d : Document) : Array Nat :=
  let start : Numbering := ⟨Array.replicate d.size 0, 0⟩
  (d.tops.foldl (fun n top => d.numberFrom d.size n [top]) start).table

end Document

/-- A document and the table of its positions, if that has been made since the last change. -/
structure IndexedDocument where
  document : Document
  table : Option (Array Nat)
  deriving DecidableEq, Repr

namespace IndexedDocument

def ofDocument (d : Document) : IndexedDocument := ⟨d, none⟩

/-- Goes on with a later state of the document. New nodes and changes to links drop the table. -/
def advance (x : IndexedDocument) (d : Document) : IndexedDocument :=
  if d.size = x.document.size ∧ d.generation = x.document.generation then { x with document := d }
  else ofDocument d

def edit (x : IndexedDocument) (edit : Edit) : IndexedDocument := x.advance (edit.after x.document)

/-- Makes the table if there is none. -/
def number (x : IndexedDocument) : IndexedDocument :=
  { x with table := some (x.table.getD x.document.positions) }

theorem document_ofDocument (d : Document) : (ofDocument d).document = d := rfl

theorem document_number (x : IndexedDocument) : x.number.document = x.document := rfl

/-- The position of a node in document order. Unknown nodes come after all others. -/
def position (x : IndexedDocument) (id : NodeId) : Nat :=
  let table := x.table.getD x.document.positions
  table[id.index]?.getD table.size

/-- How two nodes stand in document order. -/
def order (x : IndexedDocument) (a b : NodeId) : Ordering := compare (x.position a) (x.position b)

/-- What callers do between the creation of a document and a question about its order. -/
inductive Reachable : IndexedDocument → Prop
  | start {d : Document} : d.Reachable → Reachable (ofDocument d)
  | edited {x : IndexedDocument} (edit : Edit) : Reachable x → Reachable (x.edit edit)
  | asked {x : IndexedDocument} : Reachable x → Reachable x.number

end IndexedDocument
end XPath
