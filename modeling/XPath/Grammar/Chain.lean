import Mathlib.Data.List.DropRight
import XPath.Expr.Parse
import XPath.Expr.Rendering
import XPath.Grammar.Phrase
/-! Chains of operators as they are written: operands in parentheses, perhaps with signs in front,
and between them operators among blanks. Which tree a chain stands for is said by the levels alone,
without a parser: on each level operands are grouped to the left. -/
namespace XPath.Grammar
set_option autoImplicit false

/-! ## Parts of a text -/

/-- Blanks, possibly none. -/
abbrev Blanks : Type := { w : List Char // ∀ c ∈ w, Text.isBlank c = true }

/-- At least one blank. -/
abbrev Gap : Type := { w : List Char // w ≠ [] ∧ ∀ c ∈ w, Text.isBlank c = true }

/-- A text that can stand in brackets: an expression, with no white space but blanks at its end. -/
structure Enclosed where
  text : List Char
  expr : Expr
  parses : Expr.parse (String.ofList text) = .ok expr
  ends : ∀ c ∈ text.rtakeWhile Text.isSpace, Text.isBlank c = true

/-! ## Chains -/

/-- An expression in parentheses, with signs in front of it and blanks after each sign. -/
structure Operand where
  signs : List Blanks
  inner : Enclosed

namespace Operand

def signText (blanks : Blanks) : List Char := '-' :: blanks.val

def text (operand : Operand) : List Char :=
  operand.signs.flatMap signText ++ '(' :: (operand.inner.text ++ [')'])

end Operand

/-- An operator with the operand on its right. The union operator takes no sign there. -/
structure Link where
  before : Gap
  op : BinaryOp
  spelling : String
  after : Gap
  operand : Operand
  spelled : spelling ∈ op.spellings
  unsigned : op = .union → operand.signs = []

def Link.text (link : Link) : List Char :=
  link.before.val ++ (link.spelling.toList ++ (link.after.val ++ link.operand.text))

structure Chain where
  first : Operand
  more : List Link

def Chain.text (chain : Chain) : List Char := chain.first.text ++ chain.more.flatMap Link.text

/-! ## Grouping -/

/-- On this level, the first operand with the links after it stands for this expression. -/
inductive Groups : Level → Operand → List Link → Expr → Prop
  | inner {operand : Operand} : operand.signs = [] → Groups .path operand [] operand.inner.expr
  | negate {blanks : Blanks} {signs : List Blanks} {inner : Enclosed} {links : List Link}
    {e : Expr} :
    Groups .unary ⟨signs, inner⟩ links e → Groups .unary ⟨blanks :: signs, inner⟩ links (.negate e)
  | operand {level : Level} {first : Operand} {links : List Link} {e : Expr} :
    Groups level.operand first links e → Groups level first links e
  /-- The last operator of the level is outermost. -/
  | binary {level : Level} {first : Operand} {before after : List Link} {link : Link}
    {left right : Expr} :
    link.op ∈ level.operators.map Prod.snd → Groups level first before left →
    Groups level.operand link.operand after right →
    Groups level first (before ++ link :: after) (.binary link.op left right)

end XPath.Grammar
