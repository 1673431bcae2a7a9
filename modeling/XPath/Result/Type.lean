import XPath.Function.Core
/-! The ten types of result that a caller may request, with their numeric codes. -/
namespace XPath
set_option autoImplicit false

inductive ResultType where
  /-- Whatever suits the value. -/
  | any
  | number
  | string
  | boolean
  | unorderedIterator
  | orderedIterator
  | unorderedSnapshot
  | orderedSnapshot
  | anyNode
  | firstNode
  deriving DecidableEq, Repr

namespace ResultType

/-- Every type, in the order of the codes. -/
def all : List ResultType :=
  [any, number, string, boolean, unorderedIterator, orderedIterator, unorderedSnapshot,
    orderedSnapshot, anyNode, firstNode]

def code (type : ResultType) : Nat := all.idxOf type

def ofCode? (code : Nat) : Option ResultType := all[code]?

theorem ofCode?_code (type : ResultType) : ofCode? type.code = some type := by
  cases type <;> rfl

/-- The type that suits a value of the given kind. -/
def natural : Kind → ResultType
  | .nodeSet => unorderedIterator
  | .number => number
  | .string => string
  | .boolean => boolean

def isIterator : ResultType → Bool
  | unorderedIterator => true
  | orderedIterator => true
  | _ => false

def isSnapshot : ResultType → Bool
  | unorderedSnapshot => true
  | orderedSnapshot => true
  | _ => false

def isSingleNode : ResultType → Bool
  | anyNode => true
  | firstNode => true
  | _ => false

def isNodeSet (type : ResultType) : Bool := type.isIterator || type.isSnapshot || type.isSingleNode

def name : ResultType → String
  | any => "ANY_TYPE"
  | number => "NUMBER_TYPE"
  | string => "STRING_TYPE"
  | boolean => "BOOLEAN_TYPE"
  | unorderedIterator => "UNORDERED_NODE_ITERATOR_TYPE"
  | orderedIterator => "ORDERED_NODE_ITERATOR_TYPE"
  | unorderedSnapshot => "UNORDERED_NODE_SNAPSHOT_TYPE"
  | orderedSnapshot => "ORDERED_NODE_SNAPSHOT_TYPE"
  | anyNode => "ANY_UNORDERED_NODE_TYPE"
  | firstNode => "FIRST_ORDERED_NODE_TYPE"

end ResultType
end XPath
