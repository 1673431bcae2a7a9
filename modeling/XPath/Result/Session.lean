import XPath.Document.History
import XPath.Result.Basic
/-! Iterators in use. Between the calls of an iterator its document is edited, and every call meets
the generation that the document has by then. -/
namespace XPath
set_option autoImplicit false

/-- The result after one call of `iterateNext`. -/
def Result.advance (r : Result) (generation : Nat) : Result := (r.iterateNext generation).2

/-- What callers do with a result and the document it was taken from. -/
inductive IteratorAction where
  | edit (edit : Edit)
  | advance
  /-- Asks for the state of the iterator. -/
  | inquire
  deriving DecidableEq, Repr

/-- A call of `iterateNext`: the generation that it met, and how it ended. -/
structure IteratorCall where
  generation : Nat
  outcome : Except ResultError (Option NodeId)

/-- The nodes that calls have returned. -/
def IteratorCall.returned (calls : List IteratorCall) : List NodeId :=
  calls.filterMap fun call => call.outcome.toOption.join

structure IteratorSession where
  document : Document
  result : Result
  /-- The calls of `iterateNext` so far, in order. -/
  calls : List IteratorCall

namespace IteratorSession

def start (d : Document) (r : Result) : IteratorSession := ⟨d, r, []⟩

/-- How the next call of `iterateNext` would end. -/
def upcoming (s : IteratorSession) : Except ResultError (Option NodeId) :=
  (s.result.iterateNext s.document.generation).1

/-- What a question for the state of the iterator would be answered. -/
def isInvalid (s : IteratorSession) : Bool :=
  s.result.invalidIteratorState s.document.generation

def returned (s : IteratorSession) : List NodeId := IteratorCall.returned s.calls

def step (s : IteratorSession) : IteratorAction → IteratorSession
  | .edit edit => { s with document := edit.after s.document }
  | .advance =>
    { s with
      result := s.result.advance s.document.generation
      calls := s.calls ++ [⟨s.document.generation, s.upcoming⟩] }
  | .inquire => s

def run (s : IteratorSession) (actions : List IteratorAction) : IteratorSession :=
  actions.foldl step s

end IteratorSession
end XPath
