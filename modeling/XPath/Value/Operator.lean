import XPath.Expr.Basic
import XPath.Number.Arithmetic
import XPath.Value.Basic
/-! The binary operators on values. A node-set in a comparison stands for the string values of its
members, any of which may make the comparison true; compared with a boolean it is a boolean. -/
namespace XPath
set_option autoImplicit false

/-! ## Atoms -/

/-- What a comparison compares: a value without nodes. -/
inductive Scalar where
  | string (text : String)
  | number (value : Number)
  | boolean (value : Bool)
  deriving DecidableEq, Repr

namespace Scalar

def toNumber : Scalar → Number
  | string text => .parse text
  | number value => value
  | boolean value => .ofBool value

def truth : Scalar → Bool
  | string text => !text.isEmpty
  | number value => value.truth
  | boolean value => value

/-- Equality of two scalars, as booleans if either is one, else as numbers if either is one, else
as texts. -/
def equals (a b : Scalar) : Bool :=
  match a, b with
  | boolean x, _ => x == b.truth
  | _, boolean y => a.truth == y
  | number x, _ => x.equals b.toNumber
  | _, number y => a.toNumber.equals y
  | string x, string y => x == y

end Scalar

def Value.ofScalar : Scalar → Value
  | .string text => string text
  | .number value => number value
  | .boolean value => boolean value

/-! ## Comparison -/

/-- Inequality is the negation of equality, also where a side is not a number. The other four
compare numbers. -/
def Comparison.holds (comparison : Comparison) (a b : Scalar) : Bool :=
  match comparison with
  | equal => a.equals b
  | notEqual => !a.equals b
  | less => a.toNumber.lt b.toNumber
  | lessEqual => a.toNumber.le b.toNumber
  | greater => b.toNumber.lt a.toNumber
  | greaterEqual => b.toNumber.le a.toNumber

namespace Value

/-- What a value takes part in a comparison as. -/
def scalars (d : Document) (withBoolean : Bool) : Value → List Scalar
  | nodes ids =>
    if withBoolean then [.boolean !ids.isEmpty] else ids.map fun id => .string (d.stringValue id)
  | string text => [.string text]
  | number value => [.number value]
  | boolean value => [.boolean value]

def isBoolean : Value → Bool
  | boolean _ => true
  | _ => false

/-- Whether some choice of scalars from the two sides satisfies a comparison. -/
def compare (d : Document) (comparison : Comparison) (left right : Value) : Bool :=
  (left.scalars d right.isBoolean).any fun a =>
    (right.scalars d left.isBoolean).any fun b => comparison.holds a b

end Value

/-! ## Operators -/

def Arithmetic.apply : Arithmetic → Number → Number → Number
  | add => Number.add
  | subtract => Number.sub
  | multiply => Number.mul
  | divide => Number.div
  | modulo => Number.mod

namespace BinaryOp

/-- The result that the left operand settles on its own. -/
def shortcut? : BinaryOp → Value → Option Bool
  | or, left => if left.truth then some true else none
  | and, left => if left.truth then none else some false
  | _, _ => none

/-- Applies an operator to two values. -/
def apply (d : Document) (op : BinaryOp) (left right : Value) : Except EvalError Value :=
  match op with
  | or => .ok (.boolean (left.truth || right.truth))
  | and => .ok (.boolean (left.truth && right.truth))
  | compare comparison => .ok (.boolean (left.compare d comparison right))
  | arith arithmetic => .ok (.number (arithmetic.apply (left.toNumber d) (right.toNumber d)))
  | union => do
    let first ← left.toNodeSet "The union operator"
    let second ← right.toNodeSet "The union operator"
    return .nodes (d.inOrder (first ++ second))

end BinaryOp
end XPath
