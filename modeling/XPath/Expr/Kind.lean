import XPath.Expr.Basic
import XPath.Function.Core
/-! The kind of value that an expression produces, as far as its form tells. Names of calls are
taken for core functions. -/
namespace XPath
set_option autoImplicit false

def BinaryOp.kind : BinaryOp → Kind
  | or => .boolean
  | and => .boolean
  | compare _ => .boolean
  | arith _ => .number
  | union => .nodeSet

/-- The kind of an expression's values; `none` for variables and calls of other functions. -/
def Expr.kind? : Expr → Option Kind
  | literal _ => some .string
  | number _ => some .number
  | reference _ => none
  | call function _ => (CoreFunction.ofName? function).map CoreFunction.kind
  | negate _ => some .number
  | binary op _ _ => some op.kind
  | filter .. => some .nodeSet
  | path .. => some .nodeSet

end XPath
