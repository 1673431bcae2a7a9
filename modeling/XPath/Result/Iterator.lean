import XPath.Document.Basic
import XPath.Result.Error
/-! Iterators over a selection of nodes. An iterator belongs to one generation of its document: once
it meets another generation it is stale for good, unless it had come to its end before. -/
namespace XPath
set_option autoImplicit false

inductive IteratorState where
  | active
  | exhausted
  | stale
  deriving DecidableEq, Repr

structure NodeIterator where
  remaining : List NodeId
  /-- The generation of the document when the selection was made. -/
  generation : Nat
  state : IteratorState
  deriving DecidableEq, Repr

namespace NodeIterator

def ofList (ids : List NodeId) (generation : Nat) : NodeIterator := ⟨ids, generation, .active⟩

/-- Whether the next step fails when the document is in the given generation. -/
def isInvalid (it : NodeIterator) (generation : Nat) : Bool :=
  match it.state with
  | .active => generation != it.generation
  | .exhausted => false
  | .stale => true

/-- The next node, or none at the end, and the iterator after the step. -/
def next (it : NodeIterator) (generation : Nat) :
    Except ResultError (Option NodeId) × NodeIterator :=
  match it.state with
  | .exhausted => (.ok none, it)
  | .stale => (.error .stale, it)
  | .active =>
    if generation != it.generation then (.error .stale, { it with state := .stale })
    else
      match it.remaining with
      | id :: rest => (.ok (some id), { it with remaining := rest })
      | [] => (.ok none, { it with state := .exhausted })

/-- What an iterator returns until its end while the document stays as it is. -/
def drain (it : NodeIterator) : List NodeId := it.remaining

end NodeIterator
end XPath
