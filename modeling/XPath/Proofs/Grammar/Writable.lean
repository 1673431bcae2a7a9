import XPath.Expr.Rendering
import XPath.Proofs.Parser.Token
/-! The syntax trees of derivations have renderings: what the tokens of a text carry can be written,
since it was written there, and derivations leave no part out. -/
namespace XPath.Grammar
set_option autoImplicit false

open Token

variable {form : Form} {s rest : List Char} {ts us : List Token} {token : Token}

/-- What the token carries can be written. -/
def Token.Proper : Token → Prop
  | symbol _ => True
  | name qname => IsProperName qname
  | anyWith qualifier => IsSimpleName qualifier.toList
  | reference qname => IsProperName qname
  | literal text => HasQuote text
  | number value => ∃ w, (Parser.numeral w).result = some (value, [])

theorem Token.Leads.proper (h : token.Leads s rest) : token.Proper := by
  cases token with
  | symbol text => trivial
  | name qname => exact h.1
  | anyWith qualifier => exact h.1
  | reference qname => exact h.1
  | literal text =>
    obtain ⟨quote, rfl | rfl, hmem, -⟩ := h
    · exact Or.inl hmem
    · exact Or.inr hmem
  | number value =>
    obtain ⟨w, whole, fraction, -, hw, hvalue, -⟩ := h
    exact ⟨w, Parser.result_numeral.mpr
      ⟨w, whole, fraction, (List.append_nil w).symm, hw, hvalue, rfl, Or.inr rfl⟩⟩

def Proper (ts : List Token) : Prop := ∀ token ∈ ts, token.Proper

theorem Scan.proper (h : Scan s ts rest) : Proper ts := by
  induction h with
  | done => exact fun _ h => nomatch h
  | blank _ _ ih => exact ih
  | token ht _ ih =>
    intro token hmem
    rcases List.mem_cons.mp hmem with rfl | hmem
    · exact ht.proper
    · exact ih token hmem

theorem Proper.left (h : Proper (ts ++ us)) : Proper ts :=
  fun token hmem => h token (List.mem_append_left _ hmem)

theorem Proper.right (h : Proper (ts ++ us)) : Proper us :=
  fun token hmem => h token (List.mem_append_right _ hmem)

theorem Proper.head (h : Proper (token :: ts)) : token.Proper := h token List.mem_cons_self

theorem Proper.tail (h : Proper (token :: ts)) : Proper ts :=
  fun token hmem => h token (List.mem_cons_of_mem _ hmem)

theorem TestOf.writable {test : NodeTest} (h : TestOf ts test) (hts : Proper ts) :
    test.Writable := by
  cases h with
  | anyName => trivial
  | anyWith qualifier => exact hts.head
  | name expected => exact hts.head
  | type hmem =>
    simp only [nodeTypes, List.mem_cons, Prod.mk.injEq, List.not_mem_nil, or_false] at hmem
    rcases hmem with ⟨-, rfl⟩ | ⟨-, rfl⟩ | ⟨-, rfl⟩ | ⟨-, rfl⟩ <;> trivial
  | instruction target => exact hts.tail.tail.head

/-- The parts of a step can be written. -/
def StepWritable (step : Step) : Prop :=
  step.test.Writable ∧ ∀ predicate ∈ step.predicates, predicate.Writable

theorem stepWritable_toAny (axis : Axis) : StepWritable (.toAny axis) :=
  ⟨trivial, fun _ h => nomatch h⟩

theorem forall_mem_cons_of {α : Type} {p : α → Prop} {first : α} {more : List α} (h : p first)
    (h' : ∀ x ∈ more, p x) : ∀ x ∈ first :: more, p x :=
  List.forall_mem_cons.mpr ⟨h, h'⟩

theorem writable_path {start : Start} {steps : List Step}
    (hstart : ∀ primary, start = .nodes primary → primary.Writable)
    (hroot : steps = [] → start = .root) (hsteps : ∀ step ∈ steps, StepWritable step) :
    (Expr.path start steps).Writable :=
  .path hstart hroot (fun step hstep => (hsteps step hstep).1)
    fun step hstep => (hsteps step hstep).2

mutual

theorem ExprOf.writable {level : Level} {ts : List Token} {e : Expr} :
    ExprOf form level ts e → Proper ts → e.Writable
  | .operand h, hts => h.writable hts
  | .binary _ h h', hts => .binary (h.writable hts.left) (h'.writable hts.right.tail)
  | .negate h, hts => .negate (h.writable hts.tail)
  | .filter h, hts => h.writable hts
  | .path h, hts => h.writable hts

theorem PrimaryOf.writable {ts : List Token} {e : Expr} :
    PrimaryOf form ts e → Proper ts → e.Writable
  | .reference _, hts => .reference hts.head
  | .literal _, hts => .literal hts.head
  | .number _, hts => by
    obtain ⟨w, hw⟩ := hts.head
    exact .number hw
  | .call htype h, hts => by
    refine .call hts.head (fun hmem => ?_) (h.writable hts.tail.tail.left)
    obtain ⟨entry, hentry, heq⟩ := List.mem_map.mp
      (show _ ∈ nodeTypes.map Prod.fst from hmem)
    exact htype entry hentry heq.symm
  | .parentheses h, hts => h.writable hts.tail.left

theorem ArgumentsOf.writable {ts : List Token} {args : List Expr} :
    ArgumentsOf form ts args → Proper ts → ∀ arg ∈ args, arg.Writable
  | .none, _ => fun _ h => nomatch h
  | .some h h', hts => forall_mem_cons_of (h.writable hts.left) (h'.writable hts.right)

theorem MoreArgumentsOf.writable {ts : List Token} {args : List Expr} :
    MoreArgumentsOf form ts args → Proper ts → ∀ arg ∈ args, arg.Writable
  | .nil, _ => fun _ h => nomatch h
  | .cons h h', hts => forall_mem_cons_of (h.writable hts.tail.left) (h'.writable hts.tail.right)

theorem FilterOf.writable {ts : List Token} {e : Expr} :
    FilterOf form ts e → Proper ts → e.Writable
  | .bare h, hts => h.writable hts
  | .narrowed h h' hne, hts => .filter (h.writable hts.left) hne (h'.writable hts.right)

theorem PredicatesOf.writable {ts : List Token} {predicates : List Expr} :
    PredicatesOf form ts predicates → Proper ts → ∀ predicate ∈ predicates, predicate.Writable
  | .nil, _ => fun _ h => nomatch h
  | .cons h h', hts =>
    forall_mem_cons_of (h.writable hts.tail.left) (h'.writable hts.tail.right.tail)

theorem StepOf.writable {ts : List Token} {step : Step} :
    StepOf form ts step → Proper ts → StepWritable step
  | .self, _ => stepWritable_toAny .self
  | .parent, _ => stepWritable_toAny .parent
  | .full _ h h', hts => ⟨h.writable hts.left.right, h'.writable hts.right⟩

theorem MoreStepsOf.writable {ts : List Token} {steps : List Step} :
    MoreStepsOf form ts steps → Proper ts → ∀ step ∈ steps, StepWritable step
  | .nil, _ => fun _ h => nomatch h
  | .slash h h', hts => forall_mem_cons_of (h.writable hts.tail.left) (h'.writable hts.tail.right)
  | .double h h', hts =>
    forall_mem_cons_of (stepWritable_toAny .descendantOrSelf)
      (forall_mem_cons_of (h.writable hts.tail.left) (h'.writable hts.tail.right))

theorem PathOf.writable {ts : List Token} {start : Start} {steps : List Step} :
    PathOf form ts start steps → Proper ts → (Expr.path start steps).Writable
  | .relative h h', hts =>
    writable_path (by rintro _ ⟨⟩) (by rintro ⟨⟩)
      (forall_mem_cons_of (h.writable hts.left) (h'.writable hts.right))
  | .root, _ => writable_path (by rintro _ ⟨⟩) (fun _ => rfl) fun _ h => nomatch h
  | .absolute h _, hts => writable_path (by rintro _ ⟨⟩) (fun _ => rfl) (h.writable hts)
  | .doubled _ h _, hts => writable_path (by rintro _ ⟨⟩) (fun _ => rfl) (h.writable hts.tail)
  | .filter h h' hne, hts => by
    refine writable_path ?_ (fun heq => absurd heq hne) (h'.writable hts.right)
    rintro _ ⟨⟩
    exact h.writable hts.left

end

end XPath.Grammar
