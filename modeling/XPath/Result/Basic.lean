import XPath.Result.Iterator
import XPath.Value.Basic
/-! Results: a value in the shape that was requested. Every value can become a number, a string or a
boolean; the other types need a node-set and hold its members in document order, each once. -/
namespace XPath
set_option autoImplicit false

inductive Payload where
  | number (value : Number)
  | string (text : String)
  | boolean (value : Bool)
  | single (id : Option NodeId)
  | snapshot (ids : List NodeId)
  | iterator (it : NodeIterator)
  deriving DecidableEq, Repr

structure Result where
  type : ResultType
  payload : Payload
  deriving DecidableEq, Repr

/-! ## Materialization -/

/-- What a result of a node-set type holds. -/
def Payload.ofNodes (type : ResultType) (ids : List NodeId) (generation : Nat) : Payload :=
  if type.isIterator then .iterator (.ofList ids generation)
  else if type.isSnapshot then .snapshot ids
  else .single ids.head?

/-- Gives a value the requested shape. -/
def Value.materialize (value : Value) (d : Document) (requested : ResultType) :
    Except ResultError Result :=
  let type := if requested = .any then .natural value.kind else requested
  match type, value with
  | .number, value => .ok ⟨.number, .number (value.toNumber d)⟩
  | .string, value => .ok ⟨.string, .string (value.toText d)⟩
  | .boolean, value => .ok ⟨.boolean, .boolean value.truth⟩
  | type, .nodes ids => .ok ⟨type, .ofNodes type (d.inOrder ids) d.generation⟩
  | type, value => .error (.wrongType value.kind type)

/-! ## Accessors -/

namespace Result

def invalid (r : Result) (accessor : Accessor) {α : Type} : Except ResultError α :=
  .error (.invalidAccess accessor r.type)

def numberValue (r : Result) : Except ResultError Number :=
  match r.payload with
  | .number value => .ok value
  | _ => r.invalid .number

def stringValue (r : Result) : Except ResultError String :=
  match r.payload with
  | .string text => .ok text
  | _ => r.invalid .string

def booleanValue (r : Result) : Except ResultError Bool :=
  match r.payload with
  | .boolean value => .ok value
  | _ => r.invalid .boolean

/-- The selected node of a single-node result, none if nothing was selected. -/
def singleNodeValue (r : Result) : Except ResultError (Option NodeId) :=
  match r.payload with
  | .single id => .ok id
  | _ => r.invalid .singleNode

def snapshotLength (r : Result) : Except ResultError Nat :=
  match r.payload with
  | .snapshot ids => .ok ids.length
  | _ => r.invalid .snapshotLength

def snapshotItem (r : Result) (index : Nat) : Except ResultError NodeId :=
  match r.payload with
  | .snapshot ids =>
    match ids[index]? with
    | some id => .ok id
    | none => .error (.index index ids.length)
  | _ => r.invalid .snapshotItem

/-- All members of a snapshot. -/
def snapshot (r : Result) : Except ResultError (List NodeId) :=
  match r.payload with
  | .snapshot ids => .ok ids
  | _ => r.invalid .snapshotItem

/-- Advances an iterator while its document is in the given generation. -/
def iterateNext (r : Result) (generation : Nat) : Except ResultError (Option NodeId) × Result :=
  match r.payload with
  | .iterator it =>
    let (outcome, it) := it.next generation
    (outcome, { r with payload := .iterator it })
  | _ => (r.invalid .next, r)

/-- Whether advancing the iterator would fail because the document has changed. -/
def invalidIteratorState (r : Result) (generation : Nat) : Bool :=
  match r.payload with
  | .iterator it => it.isInvalid generation
  | _ => false

end Result
end XPath
