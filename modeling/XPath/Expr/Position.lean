import XPath.Expr.Basic
import XPath.Function.Core
/-! Whether an expression asks for its position or for the number of nodes that are tested together
with its own. A predicate sets both anew, so that a call inside of it asks for something else. -/
namespace XPath
set_option autoImplicit false

namespace CoreFunction

/-- Whether a function looks at the position of its node or at the number of nodes beside it. -/
def isPositional : CoreFunction → Bool
  | position => true
  | last => true
  | _ => false

end CoreFunction

mutual

/-- Whether `position` or `last` is called outside of the predicates of an expression. -/
def Expr.readsPosition : Expr → Bool
  | .literal _ => false
  | .number _ => false
  | .reference _ => false
  | .call function args =>
    (CoreFunction.ofName? function).any CoreFunction.isPositional || anyReadsPosition args
  | .negate operand => operand.readsPosition
  | .binary _ left right => left.readsPosition || right.readsPosition
  | .filter primary _ => primary.readsPosition
  | .path start _ => start.readsPosition

def Start.readsPosition : Start → Bool
  | .context => false
  | .root => false
  | .nodes primary => primary.readsPosition

def anyReadsPosition : List Expr → Bool
  | [] => false
  | expr :: rest => expr.readsPosition || anyReadsPosition rest

end

end XPath
