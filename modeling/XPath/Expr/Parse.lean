import XPath.Parser.Expr
import XPath.Text.Blank
/-! Reading an expression from text. A syntax error tells the furthest point at which the parser
tried a token and quotes what stands there. -/
namespace XPath
set_option autoImplicit false

/-! ## Syntax errors -/

inductive SyntaxProblem where
  /-- An expression was read, and the text after it stops the parser at once. -/
  | trailingInput
  /-- An expression was read, and what follows begins a longer one that has a fault. -/
  | unexpectedInput
  | unexpectedEnd
  | invalidExpression
  deriving DecidableEq, Repr

def SyntaxProblem.text : SyntaxProblem → String
  | trailingInput => "unexpected trailing input"
  | unexpectedInput => "unexpected input"
  | unexpectedEnd => "unexpected end of expression"
  | invalidExpression => "invalid expression"

structure SyntaxError where
  expression : String
  problem : SyntaxProblem
  /-- What is left of the expression where the error lies. -/
  stop : List Char
  deriving DecidableEq, Repr

namespace SyntaxError

/-- Where the error lies, counted in bytes. -/
def offset (e : SyntaxError) : Nat := e.expression.utf8ByteSize - (String.ofList e.stop).utf8ByteSize

/-- The beginning of what stands where the error lies. -/
def near (e : SyntaxError) : String := String.ofList (e.stop.take 16)

def description (e : SyntaxError) : String :=
  if e.stop.isEmpty then e.problem.text else e.problem.text ++ " near '" ++ e.near ++ "'"

def message (e : SyntaxError) : String :=
  "XPath syntax error in '" ++ e.expression ++ "' at offset " ++ toString e.offset ++ ": " ++
    e.description

end SyntaxError

/-! ## Reading -/

/-- Reads an expression that takes up the whole text but white space at its end. -/
def Expr.parse (text : String) : Except SyntaxError Expr :=
  let s := text.toList
  let reply := Parser.expr s
  match reply.result with
  | some (expr, rest) =>
    let taken := reply.taken + (rest.takeWhile Text.isSpace).length
    if (rest.dropWhile Text.isSpace).isEmpty then .ok expr
    else if taken < reply.reach then .error ⟨text, .unexpectedInput, s.drop reply.reach⟩
    else .error ⟨text, .trailingInput, s.drop taken⟩
  | none =>
    let stop := s.drop (max reply.taken reply.reach)
    .error ⟨text, if stop.all Text.isSpace then .unexpectedEnd else .invalidExpression, stop⟩

end XPath
