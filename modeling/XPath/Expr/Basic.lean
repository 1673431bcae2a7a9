import XPath.Axis
import XPath.Document.Node
import XPath.Number.Basic
/-! Expressions. Abbreviations have no form of their own: every step names its axis, and `//` is a
step along `descendant-or-self`. -/
namespace XPath
set_option autoImplicit false

/-! ## Operators -/

inductive Comparison where
  | equal
  | notEqual
  | less
  | lessEqual
  | greater
  | greaterEqual
  deriving DecidableEq, Repr

inductive Arithmetic where
  | add
  | subtract
  | multiply
  | divide
  | modulo
  deriving DecidableEq, Repr

inductive BinaryOp where
  | or
  | and
  | compare (comparison : Comparison)
  | arith (arithmetic : Arithmetic)
  | union
  deriving DecidableEq, Repr

/-! ## Node tests -/

inductive NodeTest where
  /-- A name, with or without a prefix. -/
  | name (name : QName)
  /-- Any name. -/
  | anyName
  /-- Any name with this prefix. -/
  | anyWith (qualifier : String)
  | text
  | comment
  | node
  /-- A processing instruction, with this target if one is given. -/
  | instruction (target : Option String)
  deriving DecidableEq, Repr

/-! ## Syntax trees -/

mutual

inductive Expr where
  | literal (text : String)
  | number (value : Number)
  | reference (name : String)
  | call (function : String) (args : List Expr)
  | negate (operand : Expr)
  | binary (op : BinaryOp) (left right : Expr)
  /-- A primary expression narrowed by predicates. -/
  | filter (primary : Expr) (predicates : List Expr)
  | path (start : Start) (steps : List Step)

/-- Where a location path begins. -/
inductive Start where
  | context
  | root
  | nodes (primary : Expr)

inductive Step where
  | mk (axis : Axis) (test : NodeTest) (predicates : List Expr)

end

deriving instance Repr for Expr, Start, Step

namespace Step

/-- A step without predicates to any node, the meaning of `.`, `..` and `//`. -/
def toAny (axis : Axis) : Step := mk axis .node []

end Step

namespace Expr

def isPath : Expr → Bool
  | path .. => true
  | _ => false

def isBinary : Expr → Bool
  | binary .. => true
  | _ => false

end Expr
end XPath
