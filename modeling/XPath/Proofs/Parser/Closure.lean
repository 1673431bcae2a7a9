import XPath.Proofs.Parser.Levels
/-! Properties that go from the parts of a parser to the whole. Where the tokens have a property and
every way of composing parsers keeps it, all parsers of the grammar have it. The grammar is walked
through once here, for every such property. -/
namespace XPath.Parser
set_option autoImplicit false

/-- The property holds of every token and of what is composed of parsers that have it. -/
structure Closed (C : ∀ {α : Type}, Parser α → Prop) : Prop where
  pure {α : Type} {v : α} : C (pure v)
  fail {α : Type} : C (fail : Parser α)
  bind {α β : Type} {p : Parser α} {f : α → Parser β} : C p → (∀ v, C (f v)) → C (p >>= f)
  orElse {α : Type} {p q : Parser α} : C p → C q → C (p <|> q)
  peek {α : Type} {p : Parser α} : C p → C (peek p)
  many {α : Type} {p : Parser α} : C p → C (many p)
  satisfy (cls : Char → Bool) : C (satisfy cls)
  takeWhile (cls : Char → Bool) : C (takeWhile cls)
  word (text : String) : C (word text)
  wordNotBefore (text : String) (cls : Char → Bool) : C (wordNotBefore text cls)

namespace Closed

variable {C : ∀ {α : Type}, Parser α → Prop} (hC : Closed C)
include hC

/-! ## Combinators -/

section
variable {α β : Type} {p : Parser α} {g : α → β}

theorem map (hp : C p) : C (g <$> p) := hC.bind hp fun _ => hC.pure

theorem firstOf {choices : List (Parser α)} (h : ∀ p ∈ choices, C p) : C (firstOf choices) := by
  induction choices with
  | nil => exact hC.fail
  | cons p choices ih =>
    exact hC.orElse (h p List.mem_cons_self) (ih fun q hq => h q (List.mem_cons_of_mem _ hq))

theorem optional (hp : C p) : C (optional p) := hC.orElse (hC.map hp) hC.pure

theorem separated {separator : Parser β} (hseparator : C separator) (hp : C p) :
    C (separated separator p) := by
  refine hC.bind (hC.optional hp) fun first => ?_
  cases first with
  | none => exact hC.pure
  | some first => exact hC.bind (hC.many (hC.bind hseparator fun _ => hp)) fun _ => hC.pure

end

/-! ## Names, literals and operators -/

section
variable {α : Type} {p : Parser α}

theorem char (c : Char) : C (char c) := hC.satisfy _

theorem keyword (text : String) : C (keyword text) := hC.wordNotBefore text _

theorem spelling (text : String) (value : α) : C (spelling text value) :=
  hC.bind (hC.word text) fun _ => hC.pure

theorem blanks : C blanks := hC.bind (hC.takeWhile _) fun _ => hC.pure

theorem spaced (hp : C p) : C (spaced p) :=
  hC.bind hC.blanks fun _ => hC.bind hp fun _ => hC.bind hC.blanks fun _ => hC.pure

theorem simpleName : C simpleName :=
  hC.bind (hC.satisfy _) fun _ => hC.bind (hC.takeWhile _) fun _ => hC.pure

theorem qualifiedName : C qualifiedName := by
  refine hC.bind hC.simpleName fun first => ?_
  refine hC.bind (hC.optional (hC.bind (hC.char ':') fun _ => hC.simpleName)) fun second => ?_
  cases second <;> exact hC.pure

theorem digits : C digits :=
  hC.bind (hC.satisfy _) fun _ => hC.bind (hC.takeWhile _) fun _ => hC.pure

theorem numeral : C numeral := by
  have hfraction : C (do let _ ← Parser.char '.'; Parser.optional Parser.digits) :=
    hC.bind (hC.char '.') fun _ => hC.optional hC.digits
  refine hC.orElse ?_ ?_
  · exact hC.bind hC.digits fun _ => hC.bind (hC.optional hfraction) fun _ => hC.pure
  · exact hC.bind (hC.char '.') fun _ => hC.bind hC.digits fun _ => hC.pure

theorem literal : C literal := by
  have hquoted : ∀ quote, C (quotedBy quote) := fun quote =>
    hC.bind (hC.char quote) fun _ => hC.bind (hC.takeWhile _) fun _ =>
      hC.bind (hC.char quote) fun _ => hC.pure
  exact hC.orElse (hquoted _) (hquoted _)

theorem operatorOf (level : Grammar.Level) : C (operatorOf level) := by
  have hkeyword : ∀ text value, C (do Parser.keyword text; return value : Parser BinaryOp) :=
    fun text value => hC.bind (hC.keyword text) fun _ => hC.pure
  cases level with
  | or => exact hkeyword _ _
  | and => exact hkeyword _ _
  | equality => exact hC.orElse (hC.spelling _ _) (hC.spelling _ _)
  | relational =>
    refine hC.firstOf ?_
    simp only [List.forall_mem_cons]
    refine ⟨?_, ?_, ?_, ?_, ?_, ?_, ?_, ?_, by simp⟩
    all_goals exact hC.spelling _ _
  | additive => exact hC.orElse (hC.spelling _ _) (hC.spelling _ _)
  | multiplicative =>
    refine hC.firstOf ?_
    simp only [List.forall_mem_cons]
    exact ⟨hC.spelling _ _, hkeyword _ _, hkeyword _ _, by simp⟩
  | union => exact hC.spelling _ _
  | unary => exact hC.fail
  | path => exact hC.fail

/-! ## Steps and paths -/

theorem nodeTest : C nodeTest := by
  have htype : C nodeType := by
    refine hC.firstOf ?_
    simp only [List.forall_mem_cons]
    refine ⟨?_, ?_, ?_, ?_, by simp⟩
    all_goals exact hC.spelling _ _
  have htypeTest : C typeTest := by
    refine hC.bind htype fun type => hC.bind (hC.spaced (hC.char '(')) fun _ => ?_
    cases type with
    | some test => exact hC.bind hC.pure fun _ => hC.bind (hC.char ')') fun _ => hC.pure
    | none =>
      exact hC.bind (hC.map (hC.optional (hC.spaced hC.literal))) fun _ =>
        hC.bind (hC.char ')') fun _ => hC.pure
  have hlocal : C localTest :=
    hC.orElse (hC.bind (hC.char '*') fun _ => hC.pure) (hC.map hC.simpleName)
  have hname : C nameTest := by
    refine hC.bind hC.simpleName fun first => ?_
    refine hC.bind (hC.optional (hC.bind (hC.char ':') fun _ => hlocal)) fun second => ?_
    rcases second with _ | _ | second <;> exact hC.pure
  refine hC.firstOf ?_
  simp only [List.forall_mem_cons]
  exact ⟨hC.bind (hC.char '*') fun _ => hC.pure, htypeTest, hname, by simp⟩

theorem axisTest : C axisTest := by
  have haxis : C axisName := by
    refine hC.bind (hC.firstOf fun p hp => ?_) fun _ =>
      hC.bind (hC.spaced (hC.word "::")) fun _ => hC.pure
    obtain ⟨axis, -, rfl⟩ := List.mem_map.mp hp
    exact hC.spelling _ _
  refine hC.orElse ?_ ?_
  · exact hC.bind (hC.spaced (hC.char '@')) fun _ => hC.bind hC.nodeTest fun _ => hC.pure
  · exact hC.bind (hC.optional haxis) fun _ => hC.bind hC.nodeTest fun _ => hC.pure

theorem separator : C separator :=
  hC.spaced (hC.orElse (hC.spelling _ _) (hC.spelling _ _))

end

section
variable {expr : Parser Expr} (hexpr : C expr)
include hexpr

theorem predicate : C (predicate expr) :=
  hC.bind (hC.spaced (hC.char '[')) fun _ => hC.bind hexpr fun _ =>
    hC.bind (hC.spaced (hC.char ']')) fun _ => hC.pure

theorem step : C (step expr) := by
  refine hC.firstOf ?_
  simp only [List.forall_mem_cons]
  refine ⟨hC.spelling _ _, hC.spelling _ _, ?_, by simp⟩
  exact hC.bind hC.axisTest fun _ => hC.bind (hC.many (hC.predicate hexpr)) fun _ => hC.pure

theorem nextSteps : C (nextSteps expr) :=
  hC.bind hC.separator fun _ => hC.bind (hC.step hexpr) fun _ => hC.pure

theorem moreSteps : C (moreSteps expr) := hC.map (hC.many (hC.nextSteps hexpr))

theorem locationPath : C (locationPath expr) := by
  have hnext : C (do Parser.blanks; Parser.step expr) :=
    hC.bind hC.blanks fun _ => hC.step hexpr
  have hstart : C (pathStart expr) := by
    refine hC.bind (hC.optional (hC.word "//")) fun double => ?_
    cases double with
    | some _ => exact hC.bind hC.blanks fun _ => hC.bind (hC.step hexpr) fun _ => hC.pure
    | none =>
      refine hC.bind (hC.optional (hC.word "/")) fun single => ?_
      cases single with
      | some _ => exact hC.bind (hC.optional hnext) fun _ => hC.pure
      | none => exact hC.bind (hC.step hexpr) fun _ => hC.pure
  exact hC.bind hstart fun _ => hC.bind (hC.moreSteps hexpr) fun _ => hC.pure

/-! ## Expressions -/

theorem call : C (call expr) := by
  refine hC.bind hC.qualifiedName fun name =>
    hC.bind (hC.peek (hC.spaced (hC.char '('))) fun _ => ?_
  have hargs : C (Parser.separated (Parser.spaced (Parser.char ',')) expr) :=
    hC.separated (hC.spaced (hC.char ',')) hexpr
  have hlist : ∀ make : List Expr → Expr, C (do
      Parser.blanks
      let _ ← Parser.char '('
      let args ← Parser.separated (Parser.spaced (Parser.char ',')) expr
      let _ ← Parser.spaced (Parser.char ')')
      return make args) := fun _ =>
    hC.bind hC.blanks fun _ => hC.bind (hC.char '(') fun _ => hC.bind hargs fun _ =>
      hC.bind (hC.spaced (hC.char ')')) fun _ => hC.pure
  split
  · exact hC.bind hC.fail fun _ => hlist _
  · exact hlist _

theorem primary : C (primary expr) := by
  refine hC.spaced (hC.firstOf ?_)
  simp only [List.forall_mem_cons]
  refine ⟨?_, hC.map hC.numeral, hC.map hC.literal, hC.call hexpr, ?_, by simp⟩
  · exact hC.bind (hC.char '$') fun _ => hC.bind hC.qualifiedName fun _ => hC.pure
  · exact hC.bind (hC.char '(') fun _ => hC.bind hexpr fun _ =>
      hC.bind (hC.spaced (hC.char ')')) fun _ => hC.pure

theorem pathExpr : C (pathExpr expr) := by
  refine hC.spaced (hC.orElse ?_ (hC.locationPath hexpr))
  exact hC.bind (hC.primary hexpr) fun _ => hC.bind (hC.many (hC.predicate hexpr)) fun _ =>
    hC.bind (hC.moreSteps hexpr) fun _ => hC.pure

omit hexpr in
theorem nextOperand {operand : Parser Expr} (h : C operand) (level : Grammar.Level) :
    C (nextOperand operand (Parser.operatorOf level)) :=
  hC.bind (hC.spaced (hC.operatorOf level)) fun _ => hC.bind h fun _ => hC.pure

omit hexpr in
theorem leftGrouped {operand : Parser Expr} (h : C operand) (level : Grammar.Level) :
    C (leftGrouped operand (Parser.operatorOf level)) :=
  hC.bind h fun _ => hC.bind (hC.many (hC.nextOperand h level)) fun _ => hC.pure

theorem unaryExpr : C (unaryExpr expr) :=
  hC.bind (hC.many (hC.spaced (hC.char '-'))) fun _ =>
    hC.bind (hC.leftGrouped (hC.pathExpr hexpr) .union) fun _ => hC.pure

theorem levelOf (level : Grammar.Level) : C (levelOf expr level) := by
  have hmultiplicative := hC.leftGrouped (hC.unaryExpr hexpr) .multiplicative
  have hadditive := hC.leftGrouped hmultiplicative .additive
  have hrelational := hC.leftGrouped hadditive .relational
  have hequality := hC.leftGrouped hrelational .equality
  have hand := hC.leftGrouped hequality .and
  cases level with
  | or => exact hC.leftGrouped hand .or
  | and => exact hand
  | equality => exact hequality
  | relational => exact hrelational
  | additive => exact hadditive
  | multiplicative => exact hmultiplicative
  | unary => exact hC.unaryExpr hexpr
  | union => exact hC.leftGrouped (hC.pathExpr hexpr) .union
  | path => exact hC.pathExpr hexpr

omit hexpr in
theorem exprWithin (n : Nat) : C (exprWithin n) := by
  induction n with
  | zero => exact hC.fail
  | succ n ih => exact hC.levelOf ih .or

end
end Closed
end XPath.Parser
