import XPath.Parser.Token
/-! Location paths: axes, node tests, steps and the separators between them. The parser of whole
expressions, which predicates need, is a parameter. -/
namespace XPath.Parser
set_option autoImplicit false

/-! ## Node tests -/

/-- The names that are followed by a parenthesis in node tests and hence name no function. -/
def nodeTypes : List String := ["processing-instruction", "comment", "text", "node"]

/-- The name of a node type with its test; the test of processing instructions is still to come. -/
def nodeType : Parser (Option NodeTest) :=
  firstOf [spelling "processing-instruction" none, spelling "comment" (some .comment),
    spelling "text" (some .text), spelling "node" (some .node)]

def typeTest : Parser NodeTest := do
  let type ← nodeType
  let _ ← spaced (char '(')
  let test ←
    match type with
    | some test => pure test
    | none => NodeTest.instruction <$> optional (spaced literal)
  let _ ← char ')'
  return test

/-- What may follow the colon of a name test; `none` stands for any name. -/
def localTest : Parser (Option String) :=
  (do let _ ← char '*'; return none) <|> some <$> simpleName

def nameTest : Parser NodeTest := do
  let first ← simpleName
  match ← optional (do let _ ← char ':'; localTest) with
  | none => return .name (.plain first)
  | some none => return .anyWith first
  | some (some second) => return .name ⟨some first, second⟩

def nodeTest : Parser NodeTest :=
  firstOf [do let _ ← char '*'; return .anyName, typeTest, nameTest]

/-! ## Steps -/

def axisName : Parser Axis := do
  let axis ← firstOf (Axis.all.map fun axis => spelling axis.name axis)
  spaced (word "::")
  return axis

/-- An axis with its test. `@` stands for the attribute axis and no axis for the child axis. -/
def axisTest : Parser (Axis × NodeTest) :=
  (do let _ ← spaced (char '@'); return (.attribute, ← nodeTest)) <|>
  (do let axis ← optional axisName; return (axis.getD .child, ← nodeTest))

def predicate (expr : Parser Expr) : Parser Expr := do
  let _ ← spaced (char '[')
  let condition ← expr
  let _ ← spaced (char ']')
  return condition

def fullStep (expr : Parser Expr) : Parser Step := do
  let (axis, test) ← axisTest
  return .mk axis test (← many (predicate expr))

/-- `..` and `.` take no predicates. -/
def step (expr : Parser Expr) : Parser Step :=
  firstOf [spelling ".." (.toAny .parent), spelling "." (.toAny .self), fullStep expr]

/-! ## Paths -/

/-- Whether the separator is the double one, which goes through all levels between. -/
def separator : Parser Bool := spaced (spelling "//" true <|> spelling "/" false)

/-- A step after a separator, or the two steps that a double separator makes of it. -/
def nextSteps (expr : Parser Expr) : Parser (List Step) := do
  let double ← separator
  let next ← step expr
  return if double then [.toAny .descendantOrSelf, next] else [next]

def moreSteps (expr : Parser Expr) : Parser (List Step) := List.flatten <$> many (nextSteps expr)

/-- Where a path starts and its first steps. A slash with no step after it is the root alone. -/
def pathStart (expr : Parser Expr) : Parser (Start × List Step) := do
  match ← optional (word "//") with
  | some _ => do
    blanks
    return (.root, [.toAny .descendantOrSelf, ← step expr])
  | none => do
    match ← optional (word "/") with
    | some _ => do
      let first ← optional (do blanks; step expr)
      return (.root, first.toList)
    | none => return (.context, [← step expr])

/-- A path that starts at the root or at the context node. -/
def locationPath (expr : Parser Expr) : Parser Expr := do
  let (start, first) ← pathStart expr
  return .path start (first ++ (← moreSteps expr))

end XPath.Parser
