import XPath.Grammar.Token
import XPath.Parser.Path
/-! Expressions written out. A rendering uses no abbreviation: every operand stands in parentheses,
every step names its axis, and no blanks stand but those around operators and after commas. What is
left open is the spelling of an operator, the numeral of a number and, where both will do, the quotes
of a literal. -/
namespace XPath
set_option autoImplicit false

/-- Text between two quotes of a sort that it does not hold. -/
def Quoted (text : String) (t : List Char) : Prop :=
  ∃ quote, (quote = '\'' ∨ quote = '"') ∧ quote ∉ text.toList ∧ t = quote :: (text.toList ++ [quote])

def BinaryOp.spellings : BinaryOp → List String
  | or => ["or"]
  | and => ["and"]
  | compare .equal => ["="]
  | compare .notEqual => ["!="]
  | compare .less => ["<", "&lt;"]
  | compare .lessEqual => ["<=", "&lt;="]
  | compare .greater => [">", "&gt;"]
  | compare .greaterEqual => [">=", "&gt;="]
  | arith .add => ["+"]
  | arith .subtract => ["-"]
  | arith .multiply => ["*"]
  | arith .divide => ["div"]
  | arith .modulo => ["mod"]
  | union => ["|"]

def NodeTest.Renders : NodeTest → List Char → Prop
  | name expected, t => t = expected.text.toList
  | anyName, t => t = ['*']
  | anyWith qualifier, t => t = qualifier.toList ++ [':', '*']
  | text, t => t = "text()".toList
  | comment, t => t = "comment()".toList
  | node, t => t = "node()".toList
  | instruction none, t => t = "processing-instruction()".toList
  | instruction (some target), t =>
    ∃ u, Quoted target u ∧ t = "processing-instruction(".toList ++ (u ++ [')'])

mutual

inductive Expr.Renders : Expr → List Char → Prop
  | literal {text : String} {t : List Char} : Quoted text t → Expr.Renders (.literal text) t
  | number {value : Number} {t : List Char} :
    (Parser.numeral t).result = some (value, []) → Expr.Renders (.number value) t
  | reference (name : String) : Expr.Renders (.reference name) ('$' :: name.toList)
  | call {function : String} {args : List Expr} {t : List Char} :
    ArgumentsRender args t →
    Expr.Renders (.call function args) (function.toList ++ '(' :: (t ++ [')']))
  | negate {operand : Expr} {t : List Char} :
    Expr.Renders operand t → Expr.Renders (.negate operand) ('-' :: '(' :: (t ++ [')']))
  | binary {op : BinaryOp} {left right : Expr} {t u : List Char} {spelling : String} :
    spelling ∈ op.spellings → Expr.Renders left t → Expr.Renders right u →
    Expr.Renders (.binary op left right)
      ('(' :: (t ++ ')' :: ' ' :: (spelling.toList ++ ' ' :: '(' :: (u ++ [')']))))
  | filter {primary : Expr} {predicates : List Expr} {t u : List Char} :
    Expr.Renders primary t → PredicatesRender predicates u →
    Expr.Renders (.filter primary predicates) ('(' :: (t ++ ')' :: u))
  | path {start : Start} {steps : List Step} {t u : List Char} :
    StartRenders start t → StepsRender steps u → Expr.Renders (.path start steps) (t ++ u)

inductive ArgumentsRender : List Expr → List Char → Prop
  | nil : ArgumentsRender [] []
  | cons {first : Expr} {more : List Expr} {t u : List Char} :
    Expr.Renders first t → MoreArgumentsRender more u → ArgumentsRender (first :: more) (t ++ u)

inductive MoreArgumentsRender : List Expr → List Char → Prop
  | nil : MoreArgumentsRender [] []
  | cons {first : Expr} {more : List Expr} {t u : List Char} :
    Expr.Renders first t → MoreArgumentsRender more u →
    MoreArgumentsRender (first :: more) (',' :: ' ' :: (t ++ u))

inductive PredicatesRender : List Expr → List Char → Prop
  | nil : PredicatesRender [] []
  | cons {first : Expr} {more : List Expr} {t u : List Char} :
    Expr.Renders first t → PredicatesRender more u →
    PredicatesRender (first :: more) ('[' :: (t ++ ']' :: u))

inductive StartRenders : Start → List Char → Prop
  | context : StartRenders .context []
  | root : StartRenders .root ['/']
  | nodes {primary : Expr} {t : List Char} :
    Expr.Renders primary t → StartRenders (.nodes primary) ('(' :: (t ++ [')', '/']))

inductive StepRenders : Step → List Char → Prop
  | mk {axis : Axis} {test : NodeTest} {predicates : List Expr} {t u : List Char} :
    test.Renders t → PredicatesRender predicates u →
    StepRenders (.mk axis test predicates) (axis.name.toList ++ ':' :: ':' :: (t ++ u))

/-- Steps with slashes between them. -/
inductive StepsRender : List Step → List Char → Prop
  | nil : StepsRender [] []
  | cons {first : Step} {more : List Step} {t u : List Char} :
    StepRenders first t → MoreStepsRender more u → StepsRender (first :: more) (t ++ u)

inductive MoreStepsRender : List Step → List Char → Prop
  | nil : MoreStepsRender [] []
  | cons {first : Step} {more : List Step} {t u : List Char} :
    StepRenders first t → MoreStepsRender more u →
    MoreStepsRender (first :: more) ('/' :: (t ++ u))

end

/-! ## Expressions that have renderings -/

/-- A literal can hold one sort of quote, not both. -/
def HasQuote (text : String) : Prop := '\'' ∉ text.toList ∨ '"' ∉ text.toList

def NodeTest.Writable : NodeTest → Prop
  | name expected => Grammar.IsProperName expected
  | anyWith qualifier => Grammar.IsSimpleName qualifier.toList
  | instruction (some target) => HasQuote target
  | _ => True

def Step.test : Step → NodeTest
  | mk _ test _ => test

def Step.predicates : Step → List Expr
  | mk _ _ predicates => predicates

/-- Syntax trees that some text has: names are names, numbers have numerals, no part that must stand
is missing. -/
inductive Expr.Writable : Expr → Prop
  | literal {text : String} : HasQuote text → Writable (.literal text)
  | number {value : Number} {w : List Char} :
    (Parser.numeral w).result = some (value, []) → Writable (.number value)
  | reference {name : QName} : Grammar.IsProperName name → Writable (.reference name.text)
  | call {name : QName} {args : List Expr} :
    Grammar.IsProperName name → name.text ∉ Parser.nodeTypes → (∀ arg ∈ args, Writable arg) →
    Writable (.call name.text args)
  | negate {operand : Expr} : Writable operand → Writable (.negate operand)
  | binary {op : BinaryOp} {left right : Expr} :
    Writable left → Writable right → Writable (.binary op left right)
  | filter {primary : Expr} {predicates : List Expr} :
    Writable primary → predicates ≠ [] → (∀ predicate ∈ predicates, Writable predicate) →
    Writable (.filter primary predicates)
  /-- Only the root is a path without steps. -/
  | path {start : Start} {steps : List Step} :
    (∀ primary, start = .nodes primary → Writable primary) → (steps = [] → start = .root) →
    (∀ step ∈ steps, step.test.Writable) →
    (∀ step ∈ steps, ∀ predicate ∈ step.predicates, Writable predicate) →
    Writable (.path start steps)

end XPath
