import Mathlib.Data.List.Chain
import XPath.Grammar.Token
/-! The grammar of expressions: which sequences of tokens write an expression, and its syntax tree.
Operators stand on levels, from the loosest to the tightest, and group to the left on each.

The grammar comes in two forms. The standard one lets a lone slash stand for the root and, together
with steps, for a path from the root. In the accepted one a lone slash may also be followed by a
separator and further steps, which then start at the root. -/
namespace XPath.Grammar
set_option autoImplicit false

open Token

inductive Form where
  | standard
  | accepted
  deriving DecidableEq

/-! ## Operators -/

inductive Level where
  | or
  | and
  | equality
  | relational
  | additive
  | multiplicative
  | unary
  | union
  | path
  deriving DecidableEq

namespace Level

/-- The level of the operands. -/
def operand : Level → Level
  | or => and
  | and => equality
  | equality => relational
  | relational => additive
  | additive => multiplicative
  | multiplicative => unary
  | unary => union
  | union => path
  | path => path

/-- The binary operators of a level, with their spellings. -/
def operators : Level → List (Token × BinaryOp)
  | or => [(name (.plain "or"), .or)]
  | and => [(name (.plain "and"), .and)]
  | equality => [(symbol "=", .compare .equal), (symbol "!=", .compare .notEqual)]
  | relational =>
    [(symbol "<", .compare .less), (symbol "&lt;", .compare .less),
      (symbol "<=", .compare .lessEqual), (symbol "&lt;=", .compare .lessEqual),
      (symbol ">", .compare .greater), (symbol "&gt;", .compare .greater),
      (symbol ">=", .compare .greaterEqual), (symbol "&gt;=", .compare .greaterEqual)]
  | additive => [(symbol "+", .arith .add), (symbol "-", .arith .subtract)]
  | multiplicative =>
    [(symbol "*", .arith .multiply), (name (.plain "div"), .arith .divide),
      (name (.plain "mod"), .arith .modulo)]
  | unary => []
  | union => [(symbol "|", .union)]
  | path => []

end Level

/-! ## Node tests -/

/-- The node types with the tests that they stand for. -/
def nodeTypes : List (String × NodeTest) :=
  [("processing-instruction", .instruction none), ("comment", .comment), ("text", .text),
    ("node", .node)]

inductive TestOf : List Token → NodeTest → Prop
  | anyName : TestOf [symbol "*"] .anyName
  | anyWith (qualifier : String) : TestOf [.anyWith qualifier] (.anyWith qualifier)
  | name (expected : QName) : TestOf [.name expected] (.name expected)
  | type {type : String} {test : NodeTest} :
    (type, test) ∈ nodeTypes → TestOf [.name (.plain type), symbol "(", symbol ")"] test
  | instruction (target : String) :
    TestOf [.name (.plain "processing-instruction"), symbol "(", literal target, symbol ")"]
      (.instruction (some target))

inductive AxisOf : List Token → Axis → Prop
  | child : AxisOf [] .child
  | attribute : AxisOf [symbol "@"] .attribute
  | named (axis : Axis) : AxisOf [name (.plain axis.name), symbol "::"] axis

/-! ## Expressions -/

section
variable (form : Form)

mutual

inductive ExprOf : Level → List Token → Expr → Prop
  | operand {level : Level} {ts : List Token} {e : Expr} :
    ExprOf level.operand ts e → ExprOf level ts e
  | binary {level : Level} {ts us : List Token} {token : Token} {op : BinaryOp}
    {left right : Expr} :
    (token, op) ∈ level.operators → ExprOf level ts left → ExprOf level.operand us right →
    ExprOf level (ts ++ token :: us) (.binary op left right)
  | negate {ts : List Token} {e : Expr} :
    ExprOf .unary ts e → ExprOf .unary (symbol "-" :: ts) (.negate e)
  | filter {ts : List Token} {e : Expr} : FilterOf ts e → ExprOf .path ts e
  | path {ts : List Token} {start : Start} {steps : List Step} :
    PathOf ts start steps → ExprOf .path ts (.path start steps)

/-- A primary expression. -/
inductive PrimaryOf : List Token → Expr → Prop
  | reference (name : QName) : PrimaryOf [.reference name] (.reference name.text)
  | literal (text : String) : PrimaryOf [.literal text] (.literal text)
  | number (value : Number) : PrimaryOf [.number value] (.number value)
  | call {name : QName} {ts : List Token} {args : List Expr} :
    (∀ entry ∈ nodeTypes, name.text ≠ entry.1) → ArgumentsOf ts args →
    PrimaryOf (.name name :: symbol "(" :: (ts ++ [symbol ")"])) (.call name.text args)
  | parentheses {ts : List Token} {e : Expr} :
    ExprOf .or ts e → PrimaryOf (symbol "(" :: (ts ++ [symbol ")"])) e

/-- Arguments with commas between them. -/
inductive ArgumentsOf : List Token → List Expr → Prop
  | none : ArgumentsOf [] []
  | some {ts us : List Token} {e : Expr} {more : List Expr} :
    ExprOf .or ts e → MoreArgumentsOf us more → ArgumentsOf (ts ++ us) (e :: more)

inductive MoreArgumentsOf : List Token → List Expr → Prop
  | nil : MoreArgumentsOf [] []
  | cons {ts us : List Token} {e : Expr} {more : List Expr} :
    ExprOf .or ts e → MoreArgumentsOf us more →
    MoreArgumentsOf (symbol "," :: (ts ++ us)) (e :: more)

/-- A primary expression with the predicates that follow it. -/
inductive FilterOf : List Token → Expr → Prop
  | bare {ts : List Token} {e : Expr} : PrimaryOf ts e → FilterOf ts e
  | narrowed {ts us : List Token} {e : Expr} {predicates : List Expr} :
    PrimaryOf ts e → PredicatesOf us predicates → predicates ≠ [] →
    FilterOf (ts ++ us) (.filter e predicates)

inductive PredicatesOf : List Token → List Expr → Prop
  | nil : PredicatesOf [] []
  | cons {ts us : List Token} {e : Expr} {more : List Expr} :
    ExprOf .or ts e → PredicatesOf us more →
    PredicatesOf (symbol "[" :: (ts ++ symbol "]" :: us)) (e :: more)

/-- A step with the predicates that follow it, or an abbreviation. -/
inductive StepOf : List Token → Step → Prop
  | self : StepOf [symbol "."] (.toAny .self)
  | parent : StepOf [symbol ".."] (.toAny .parent)
  | full {ts us vs : List Token} {axis : Axis} {test : NodeTest} {predicates : List Expr} :
    AxisOf ts axis → TestOf us test → PredicatesOf vs predicates →
    StepOf (ts ++ us ++ vs) (.mk axis test predicates)

/-- Steps after separators. A double separator stands for a step of its own. -/
inductive MoreStepsOf : List Token → List Step → Prop
  | nil : MoreStepsOf [] []
  | slash {ts us : List Token} {step : Step} {more : List Step} :
    StepOf ts step → MoreStepsOf us more → MoreStepsOf (symbol "/" :: (ts ++ us)) (step :: more)
  | double {ts us : List Token} {step : Step} {more : List Step} :
    StepOf ts step → MoreStepsOf us more →
    MoreStepsOf (symbol "//" :: (ts ++ us)) (.toAny .descendantOrSelf :: step :: more)

inductive PathOf : List Token → Start → List Step → Prop
  | relative {ts us : List Token} {step : Step} {more : List Step} :
    StepOf ts step → MoreStepsOf us more → PathOf (ts ++ us) .context (step :: more)
  | root : PathOf [symbol "/"] .root []
  /-- A path from the root begins with a separator. -/
  | absolute {ts : List Token} {steps : List Step} :
    MoreStepsOf ts steps → steps ≠ [] → PathOf ts .root steps
  | doubled {ts : List Token} {steps : List Step} :
    form = .accepted → MoreStepsOf ts steps → steps ≠ [] →
    PathOf (symbol "/" :: ts) .root steps
  | filter {ts us : List Token} {e : Expr} {steps : List Step} :
    FilterOf ts e → MoreStepsOf us steps → steps ≠ [] → PathOf (ts ++ us) (.nodes e) steps

end

end

/-! ## Lone slashes -/

def IsSeparator (token : Token) : Prop := token = symbol "/" ∨ token = symbol "//"

/-- No slash stands directly in front of a separator. -/
def SlashesApart (ts : List Token) : Prop :=
  ts.IsChain fun token next => token = symbol "/" → ¬ IsSeparator next

end XPath.Grammar
