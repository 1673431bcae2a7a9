import XPath.Expr.Parse
import XPath.Result.Type
import XPath.Value.Error
/-! Why a query does not give the result that was asked for. -/
namespace XPath
set_option autoImplicit false

/-- The accessors of a result. -/
inductive Accessor where
  | number
  | string
  | boolean
  | singleNode
  | snapshotLength
  | snapshotItem
  | next
  deriving DecidableEq, Repr

def Accessor.name : Accessor → String
  | number => "numberValue"
  | string => "stringValue"
  | boolean => "booleanValue"
  | singleNode => "singleNodeValue"
  | snapshotLength => "snapshotLength"
  | snapshotItem => "snapshotItem"
  | next => "iterateNext"

inductive ResultError where
  | malformed (error : SyntaxError)
  | evaluation (error : EvalError)
  | wrongType (natural : Kind) (requested : ResultType)
  | invalidAccess (accessor : Accessor) (type : ResultType)
  | index (index length : Nat)
  | stale
  | unknownType (code : Nat)
  deriving DecidableEq, Repr

/-- The broad classes of errors that callers tell apart. -/
inductive ErrorCategory where
  | malformed
  | evaluation
  | type
  | other
  deriving DecidableEq, Repr

namespace ResultError

def category : ResultError → ErrorCategory
  | malformed _ => .malformed
  | evaluation _ => .evaluation
  | wrongType .. => .type
  | invalidAccess .. => .type
  | _ => .other

def message : ResultError → String
  | malformed error => error.message
  | evaluation error => "XPath evaluation failed: " ++ error.message
  | wrongType natural requested =>
    "A " ++ natural.text ++ " value cannot be returned as " ++ requested.name
  | invalidAccess accessor type => accessor.name ++ " is not available on a " ++ type.name ++ " result"
  | index i length =>
    "Snapshot index " ++ toString i ++ " is out of range for length " ++ toString length
  | stale => "The document changed after the iterator was created"
  | unknownType code => "Unknown XPath result type code " ++ toString code

end ResultError
end XPath
