import XPath.Parser.Path
/-! Whole expressions: primary expressions, and the levels of operators from the loosest to the
tightest, each of which groups to the left. -/
namespace XPath.Parser
set_option autoImplicit false

/-! ## Primary expressions -/

/-- A name with an argument list. Names of node types are left to node tests. -/
def call (expr : Parser Expr) : Parser Expr := do
  let name ← qualifiedName
  let _ ← peek (spaced (char '('))
  if nodeTypes.contains name then fail
  blanks
  let _ ← char '('
  let args ← separated (spaced (char ',')) expr
  let _ ← spaced (char ')')
  return .call name args

def parenthesized (expr : Parser Expr) : Parser Expr := do
  let _ ← char '('
  let inner ← expr
  let _ ← spaced (char ')')
  return inner

def reference : Parser Expr := do
  let _ ← char '$'
  return .reference (← qualifiedName)

def primary (expr : Parser Expr) : Parser Expr :=
  spaced (firstOf [reference, .number <$> numeral, .literal <$> literal, call expr,
    parenthesized expr])

/-- A primary expression with its predicates, and the steps that lead on from it. -/
def filterPath (expr : Parser Expr) : Parser Expr := do
  let primary ← primary expr
  let predicates ← many (predicate expr)
  let start := if predicates.isEmpty then primary else .filter primary predicates
  let steps ← moreSteps expr
  return if steps.isEmpty then start else .path (.nodes start) steps

/-- A primary expression is tried before a path, since a call begins like a step. -/
def pathExpr (expr : Parser Expr) : Parser Expr :=
  spaced (filterPath expr <|> locationPath expr)

/-! ## Operators -/

/-- Operands with operators between them, grouped to the left. -/
def leftGrouped (operand : Parser Expr) (op : Parser BinaryOp) : Parser Expr := do
  let first ← operand
  let more ← many (do let op ← spaced op; return (op, ← operand))
  return more.foldl (fun left (op, right) => .binary op left right) first

def unionExpr (expr : Parser Expr) : Parser Expr := leftGrouped (pathExpr expr) unionOp

/-- Minus signs bind less tightly than the union operator. -/
def unaryExpr (expr : Parser Expr) : Parser Expr := do
  let signs ← many (spaced (char '-'))
  let operand ← unionExpr expr
  return signs.foldr (fun _ e => .negate e) operand

def multiplicativeExpr (expr : Parser Expr) : Parser Expr :=
  leftGrouped (unaryExpr expr) multiplicativeOp

def additiveExpr (expr : Parser Expr) : Parser Expr :=
  leftGrouped (multiplicativeExpr expr) additiveOp

def relationalExpr (expr : Parser Expr) : Parser Expr :=
  leftGrouped (additiveExpr expr) relationalOp

def equalityExpr (expr : Parser Expr) : Parser Expr :=
  leftGrouped (relationalExpr expr) equalityOp

def andExpr (expr : Parser Expr) : Parser Expr := leftGrouped (equalityExpr expr) andOp

def orExpr (expr : Parser Expr) : Parser Expr := leftGrouped (andExpr expr) orOp

/-- Expressions with at most `depth` brackets open at a time. -/
def exprWithin : Nat → Parser Expr
  | 0 => fail
  | depth + 1 => orExpr (exprWithin depth)

/-- Every open bracket is a character of the text, so its length bounds the depth. -/
def expr : Parser Expr := fun s => exprWithin (s.length + 1) s

end XPath.Parser
