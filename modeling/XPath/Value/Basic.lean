import XPath.Document.Content
import XPath.Document.Order
import XPath.Number.Numeral
import XPath.Number.Shortest
import XPath.Value.Error
/-! Values and their conversions. A list of nodes stands for a set; where one of its members has to
speak for it, that is the first in document order. -/
namespace XPath
set_option autoImplicit false

inductive Value where
  | nodes (ids : List NodeId)
  | string (text : String)
  | number (value : Number)
  | boolean (value : Bool)
  deriving DecidableEq, Repr

def Number.ofBool (b : Bool) : Number := ofNat b.toNat

namespace Value

def kind : Value → Kind
  | nodes _ => .nodeSet
  | string _ => .string
  | number _ => .number
  | boolean _ => .boolean

/-- Node-sets and texts are true unless empty. -/
def truth : Value → Bool
  | nodes ids => !ids.isEmpty
  | string text => !text.isEmpty
  | number value => value.truth
  | boolean value => value

/-- The string value of the first member of a node-set, empty if there is none. -/
def firstText (d : Document) (ids : List NodeId) : String :=
  ((d.first? ids).map d.stringValue).getD ""

def toText (d : Document) : Value → String
  | nodes ids => firstText d ids
  | string text => text
  | number value => value.toText
  | boolean value => if value then "true" else "false"

def toNumber (d : Document) : Value → Number
  | nodes ids => .parse (firstText d ids)
  | string text => .parse text
  | number value => value
  | boolean value => .ofBool value

/-- The members of a node-set; `purpose` names what needs one. -/
def toNodeSet (purpose : String) : Value → Except EvalError (List NodeId)
  | nodes ids => .ok ids
  | value => .error (.notNodeSet purpose value.kind)

/-- Whether a predicate with this value keeps the node at `position`: a number names the position,
and any other value is taken as a truth value. -/
def selects (position : Nat) : Value → Bool
  | number value => value.equals (.ofNat position)
  | value => value.truth

end Value
end XPath
