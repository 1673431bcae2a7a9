import XPath.Grammar.Phrase
/-! What derivations say of their tokens: brackets are balanced, and the standard form is the accepted
one without slashes in front of separators. Each statement is a mutual induction with one case for
every production. -/
namespace XPath.Grammar
set_option autoImplicit false

open Token

variable {form : Form} {ts us : List Token} {token : Token} {e : Expr}

theorem operators_spec {level : Level} {op : BinaryOp} (h : (token, op) ∈ level.operators) :
    token.brackets = [] ∧ token ≠ symbol "/" ∧ token ≠ symbol "//" := by
  have hall : ∀ level : Level, ∀ entry ∈ level.operators,
      entry.1.brackets = [] ∧ entry.1 ≠ symbol "/" ∧ entry.1 ≠ symbol "//" := by
    intro level
    cases level <;> decide
  exact hall level (token, op) h

/-! ## Brackets -/

theorem Balanced.append {u v : List Char} (h : Balanced u) (h' : Balanced v) :
    Balanced (u ++ v) := by
  induction h with
  | nil => exact h'
  | round hinner _ _ ih => simpa using hinner.round ih
  | square hinner _ _ ih => simpa using hinner.square ih

/-- Tokens whose brackets are balanced. -/
def BalancedTokens (ts : List Token) : Prop := Balanced (ts.flatMap Token.brackets)

theorem BalancedTokens.append (h : BalancedTokens ts) (h' : BalancedTokens us) :
    BalancedTokens (ts ++ us) := by
  unfold BalancedTokens
  rw [List.flatMap_append]
  exact Balanced.append h h'

theorem BalancedTokens.cons (ht : token.brackets = []) (h : BalancedTokens ts) :
    BalancedTokens (token :: ts) := by
  unfold BalancedTokens
  rwa [List.flatMap_cons, ht, List.nil_append]

theorem BalancedTokens.round (h : BalancedTokens ts) (h' : BalancedTokens us) :
    BalancedTokens (symbol "(" :: (ts ++ symbol ")" :: us)) := by
  have heq : (symbol "(" :: (ts ++ symbol ")" :: us)).flatMap Token.brackets =
      '(' :: (ts.flatMap Token.brackets ++ ')' :: us.flatMap Token.brackets) := by
    rw [List.flatMap_cons, List.flatMap_append, List.flatMap_cons]
    rfl
  unfold BalancedTokens
  rw [heq]
  exact Balanced.round h h'

theorem BalancedTokens.square (h : BalancedTokens ts) (h' : BalancedTokens us) :
    BalancedTokens (symbol "[" :: (ts ++ symbol "]" :: us)) := by
  have heq : (symbol "[" :: (ts ++ symbol "]" :: us)).flatMap Token.brackets =
      '[' :: (ts.flatMap Token.brackets ++ ']' :: us.flatMap Token.brackets) := by
    rw [List.flatMap_cons, List.flatMap_append, List.flatMap_cons]
    rfl
  unfold BalancedTokens
  rw [heq]
  exact Balanced.square h h'

theorem BalancedTokens.nil : BalancedTokens [] := Balanced.nil

theorem TestOf.balanced {test : NodeTest} (h : TestOf ts test) : BalancedTokens ts := by
  cases h with
  | anyName => exact .nil
  | anyWith qualifier => exact .nil
  | name expected => exact .nil
  | type hmem => exact BalancedTokens.cons rfl (BalancedTokens.nil.round .nil)
  | instruction target =>
    have hliteral : BalancedTokens [literal target] := .cons rfl .nil
    exact BalancedTokens.cons rfl (hliteral.round .nil)

theorem AxisOf.balanced {axis : Axis} (h : AxisOf ts axis) : BalancedTokens ts := by
  cases h <;> exact .nil

mutual

theorem ExprOf.balanced {level : Level} {ts : List Token} {e : Expr} :
    ExprOf form level ts e → BalancedTokens ts
  | .operand h => h.balanced
  | .binary hop h h' => h.balanced.append (h'.balanced.cons (operators_spec hop).1)
  | .negate h => h.balanced.cons rfl
  | .filter h => h.balanced
  | .path h => h.balanced

theorem PrimaryOf.balanced {ts : List Token} {e : Expr} :
    PrimaryOf form ts e → BalancedTokens ts
  | .reference _ => .nil
  | .literal _ => .nil
  | .number _ => .nil
  | .call _ h => .cons rfl (h.balanced.round .nil)
  | .parentheses h => h.balanced.round .nil

theorem ArgumentsOf.balanced {ts : List Token} {args : List Expr} :
    ArgumentsOf form ts args → BalancedTokens ts
  | .none => .nil
  | .some h h' => h.balanced.append h'.balanced

theorem MoreArgumentsOf.balanced {ts : List Token} {args : List Expr} :
    MoreArgumentsOf form ts args → BalancedTokens ts
  | .nil => .nil
  | .cons h h' => .cons rfl (h.balanced.append h'.balanced)

theorem FilterOf.balanced {ts : List Token} {e : Expr} :
    FilterOf form ts e → BalancedTokens ts
  | .bare h => h.balanced
  | .narrowed h h' _ => h.balanced.append h'.balanced

theorem PredicatesOf.balanced {ts : List Token} {predicates : List Expr} :
    PredicatesOf form ts predicates → BalancedTokens ts
  | .nil => .nil
  | .cons h h' => h.balanced.square h'.balanced

theorem StepOf.balanced {ts : List Token} {step : Step} :
    StepOf form ts step → BalancedTokens ts
  | .self => .nil
  | .parent => .nil
  | .full h h' h'' => (h.balanced.append h'.balanced).append h''.balanced

theorem MoreStepsOf.balanced {ts : List Token} {steps : List Step} :
    MoreStepsOf form ts steps → BalancedTokens ts
  | .nil => .nil
  | .slash h h' => .cons rfl (h.balanced.append h'.balanced)
  | .double h h' => .cons rfl (h.balanced.append h'.balanced)

theorem PathOf.balanced {ts : List Token} {start : Start} {steps : List Step} :
    PathOf form ts start steps → BalancedTokens ts
  | .relative h h' => h.balanced.append h'.balanced
  | .root => .nil
  | .absolute h _ => h.balanced
  | .doubled _ h _ => h.balanced.cons rfl
  | .filter h h' _ => h.balanced.append h'.balanced

end

/-! ## Lone slashes -/

/-- What follows these tokens may be anything. -/
def EndsApart (ts : List Token) : Prop := ∀ token ∈ ts.getLast?, token ≠ symbol "/"

/-- What stands before these tokens may be anything. -/
def StartsApart (ts : List Token) : Prop := ∀ token ∈ ts.head?, ¬ IsSeparator token

theorem SlashesApart.append (h : SlashesApart ts) (h' : SlashesApart us)
    (hmeet : EndsApart ts ∨ StartsApart us) : SlashesApart (ts ++ us) := by
  refine List.isChain_append.mpr ⟨h, h', fun token ht next hn hslash => ?_⟩
  rcases hmeet with hends | hstarts
  · exact absurd hslash (hends token ht)
  · exact hstarts next hn

theorem SlashesApart.cons (h : SlashesApart ts) (hmeet : token ≠ symbol "/" ∨ StartsApart ts) :
    SlashesApart (token :: ts) := by
  refine List.isChain_cons.mpr ⟨fun next hn hslash => ?_, h⟩
  rcases hmeet with hne | hstarts
  · exact absurd hslash hne
  · exact hstarts next hn

theorem SlashesApart.nil : SlashesApart [] := List.isChain_nil

theorem SlashesApart.single : SlashesApart [token] := List.isChain_singleton _

theorem EndsApart.append (h : EndsApart ts) (h' : EndsApart us) : EndsApart (ts ++ us) := by
  intro token ht
  rw [List.getLast?_append] at ht
  cases hus : us.getLast? with
  | none =>
    rw [hus] at ht
    exact h token ht
  | some last =>
    rw [hus] at ht
    exact h' token (hus.trans ht)

theorem EndsApart.cons (h : EndsApart ts) (hne : token ≠ symbol "/") : EndsApart (token :: ts) := by
  have hfirst : EndsApart [token] := by
    intro last hlast
    obtain rfl : token = last := by simpa using hlast
    exact hne
  exact hfirst.append h

theorem EndsApart.nil : EndsApart [] := fun _ h => nomatch h

theorem startsApart_cons (h : ¬ IsSeparator token) : StartsApart (token :: ts) := by
  intro first hfirst
  obtain rfl : token = first := by simpa using hfirst
  exact h

theorem StartsApart.append (h : StartsApart ts) (h' : StartsApart us) : StartsApart (ts ++ us) := by
  cases ts with
  | nil => exact h'
  | cons token ts => exact h

/-- Tokens with slashes apart, before and after which separators may stand. -/
structure Apart (ts : List Token) : Prop where
  slashes : SlashesApart ts
  ends : EndsApart ts
  starts : StartsApart ts

theorem Apart.append (h : Apart ts) (h' : Apart us) : Apart (ts ++ us) :=
  ⟨h.slashes.append h'.slashes (Or.inl h.ends), h.ends.append h'.ends, h.starts.append h'.starts⟩

theorem Apart.nil : Apart [] := ⟨.nil, .nil, fun _ h => nomatch h⟩

theorem apart_of_forall (h : ∀ token ∈ ts, ¬ IsSeparator token) : Apart ts := by
  induction ts with
  | nil => exact .nil
  | cons token ts ih =>
    have htoken : ¬ IsSeparator token := h token List.mem_cons_self
    have hts := ih fun next hnext => h next (List.mem_cons_of_mem _ hnext)
    have hne : token ≠ symbol "/" := fun heq => htoken (Or.inl heq)
    exact ⟨hts.slashes.cons (Or.inl hne), hts.ends.cons hne, startsApart_cons htoken⟩

/-- Slashes inside of brackets do not meet those outside. -/
theorem SlashesApart.enclosed {first last : Token} (hfirst : ¬ IsSeparator first)
    (hlast : ¬ IsSeparator last) (h : SlashesApart ts) (h' : Apart us) :
    Apart (first :: (ts ++ last :: us)) := by
  have hclosing : Apart [last] := apart_of_forall (by simpa)
  have hafter : Apart (last :: us) := hclosing.append h'
  have hne : first ≠ symbol "/" := fun heq => hfirst (Or.inl heq)
  refine ⟨(h.append hafter.slashes (Or.inr hafter.starts)).cons (Or.inl hne), ?_,
    startsApart_cons hfirst⟩
  intro token htoken
  refine hafter.ends token ?_
  rwa [← List.cons_append, List.getLast?_append_cons] at htoken

theorem TestOf.apart {test : NodeTest} (h : TestOf ts test) : Apart ts ∧ ts ≠ [] := by
  cases h <;> exact ⟨apart_of_forall (by simp [IsSeparator]), List.cons_ne_nil _ _⟩

theorem AxisOf.apart {axis : Axis} (h : AxisOf ts axis) : Apart ts := by
  cases h <;> exact apart_of_forall (by simp [IsSeparator])

/-- A step after a separator. -/
theorem slashesApart_step (h : Apart ts ∧ ts ≠ []) (h' : SlashesApart us ∧ EndsApart us) :
    SlashesApart (token :: (ts ++ us)) ∧ EndsApart (token :: (ts ++ us)) := by
  obtain ⟨hts, hne⟩ := h
  have hstarts : StartsApart (ts ++ us) := by
    obtain ⟨first, more, rfl⟩ := List.exists_cons_of_ne_nil hne
    exact hts.starts
  have hends := hts.ends.append h'.2
  refine ⟨(hts.slashes.append h'.1 (Or.inl hts.ends)).cons (Or.inr hstarts), fun last hlast => ?_⟩
  rw [List.getLast?_cons_of_ne_nil (by simp [hne])] at hlast
  exact hends last hlast

mutual

theorem ExprOf.slashesApart {level : Level} {ts : List Token} {e : Expr} :
    ExprOf .standard level ts e → SlashesApart ts
  | .operand h => h.slashesApart
  | .binary hop h h' => by
    obtain ⟨-, hslash, hdouble⟩ := operators_spec hop
    exact h.slashesApart.append (h'.slashesApart.cons (Or.inl hslash))
      (Or.inr (startsApart_cons fun hsep => hsep.elim hslash hdouble))
  | .negate h => h.slashesApart.cons (Or.inl (by decide))
  | .filter h => h.apart.slashes
  | .path h => h.slashesApart

theorem PrimaryOf.apart {ts : List Token} {e : Expr} : PrimaryOf .standard ts e → Apart ts
  | .reference _ => apart_of_forall (by simp [IsSeparator])
  | .literal _ => apart_of_forall (by simp [IsSeparator])
  | .number _ => apart_of_forall (by simp [IsSeparator])
  | @PrimaryOf.call _ qname _ _ _ h => by
    have hname : Apart [.name qname] := apart_of_forall (by simp [IsSeparator])
    exact hname.append (h.slashesApart.enclosed (by simp [IsSeparator]) (by simp [IsSeparator]) .nil)
  | .parentheses h =>
    h.slashesApart.enclosed (by simp [IsSeparator]) (by simp [IsSeparator]) .nil

theorem ArgumentsOf.slashesApart {ts : List Token} {args : List Expr} :
    ArgumentsOf .standard ts args → SlashesApart ts
  | .none => .nil
  | .some h h' => h.slashesApart.append h'.slashesApart.1 (Or.inr h'.slashesApart.2)

theorem MoreArgumentsOf.slashesApart {ts : List Token} {args : List Expr} :
    MoreArgumentsOf .standard ts args → SlashesApart ts ∧ StartsApart ts
  | .nil => ⟨.nil, Apart.nil.starts⟩
  | .cons h h' =>
    ⟨(h.slashesApart.append h'.slashesApart.1 (Or.inr h'.slashesApart.2)).cons
      (Or.inl (by decide)), startsApart_cons (by simp [IsSeparator])⟩

theorem FilterOf.apart {ts : List Token} {e : Expr} : FilterOf .standard ts e → Apart ts
  | .bare h => h.apart
  | .narrowed h h' _ => h.apart.append h'.apart

theorem PredicatesOf.apart {ts : List Token} {predicates : List Expr} :
    PredicatesOf .standard ts predicates → Apart ts
  | .nil => .nil
  | .cons h h' =>
    h.slashesApart.enclosed (by simp [IsSeparator]) (by simp [IsSeparator]) h'.apart

theorem StepOf.apart {ts : List Token} {step : Step} :
    StepOf .standard ts step → Apart ts ∧ ts ≠ []
  | .self => ⟨apart_of_forall (by simp [IsSeparator]), List.cons_ne_nil _ _⟩
  | .parent => ⟨apart_of_forall (by simp [IsSeparator]), List.cons_ne_nil _ _⟩
  | .full h h' h'' => ⟨(h.apart.append h'.apart.1).append h''.apart, by simp [h'.apart.2]⟩

theorem MoreStepsOf.slashesApart {ts : List Token} {steps : List Step} :
    MoreStepsOf .standard ts steps → SlashesApart ts ∧ EndsApart ts
  | .nil => ⟨.nil, .nil⟩
  | .slash h h' => slashesApart_step h.apart h'.slashesApart
  | .double h h' => slashesApart_step h.apart h'.slashesApart

theorem PathOf.slashesApart {ts : List Token} {start : Start} {steps : List Step} :
    PathOf .standard ts start steps → SlashesApart ts
  | .relative h h' => h.apart.1.slashes.append h'.slashesApart.1 (Or.inl h.apart.1.ends)
  | .root => .single
  | .absolute h _ => h.slashesApart.1
  | .doubled hform _ _ => nomatch hform
  | .filter h h' _ => h.apart.slashes.append h'.slashesApart.1 (Or.inl h.apart.ends)

end

theorem MoreStepsOf.head_isSeparator {steps : List Step} (h : MoreStepsOf form ts steps)
    (hne : steps ≠ []) : ∃ separator more, ts = separator :: more ∧ IsSeparator separator := by
  cases h with
  | nil => exact absurd rfl hne
  | slash h h' => exact ⟨_, _, rfl, Or.inl rfl⟩
  | double h h' => exact ⟨_, _, rfl, Or.inr rfl⟩

theorem SlashesApart.inside {first last : Token}
    (h : SlashesApart (first :: (ts ++ last :: us))) : SlashesApart ts ∧ SlashesApart us :=
  ⟨h.tail.left_of_append, h.tail.right_of_append.tail⟩

/- Where slashes are apart, the one production that only the accepted form has was not used. -/
mutual

theorem ExprOf.standard {level : Level} {ts : List Token} {e : Expr} :
    ExprOf .accepted level ts e → SlashesApart ts → ExprOf .standard level ts e
  | .operand h, hs => .operand (h.standard hs)
  | .binary hop h h', hs =>
    .binary hop (h.standard hs.left_of_append) (h'.standard hs.right_of_append.tail)
  | .negate h, hs => .negate (h.standard hs.tail)
  | .filter h, hs => .filter (h.standard hs)
  | .path h, hs => .path (h.standard hs)

theorem PrimaryOf.standard {ts : List Token} {e : Expr} :
    PrimaryOf .accepted ts e → SlashesApart ts → PrimaryOf .standard ts e
  | .reference _, _ => .reference _
  | .literal _, _ => .literal _
  | .number _, _ => .number _
  | .call hname h, hs => .call hname (h.standard (SlashesApart.inside hs.tail).1)
  | .parentheses h, hs => .parentheses (h.standard hs.inside.1)

theorem ArgumentsOf.standard {ts : List Token} {args : List Expr} :
    ArgumentsOf .accepted ts args → SlashesApart ts → ArgumentsOf .standard ts args
  | .none, _ => .none
  | .some h h', hs => .some (h.standard hs.left_of_append) (h'.standard hs.right_of_append)

theorem MoreArgumentsOf.standard {ts : List Token} {args : List Expr} :
    MoreArgumentsOf .accepted ts args → SlashesApart ts → MoreArgumentsOf .standard ts args
  | .nil, _ => .nil
  | .cons h h', hs =>
    .cons (h.standard hs.tail.left_of_append) (h'.standard hs.tail.right_of_append)

theorem FilterOf.standard {ts : List Token} {e : Expr} :
    FilterOf .accepted ts e → SlashesApart ts → FilterOf .standard ts e
  | .bare h, hs => .bare (h.standard hs)
  | .narrowed h h' hne, hs =>
    .narrowed (h.standard hs.left_of_append) (h'.standard hs.right_of_append) hne

theorem PredicatesOf.standard {ts : List Token} {predicates : List Expr} :
    PredicatesOf .accepted ts predicates → SlashesApart ts → PredicatesOf .standard ts predicates
  | .nil, _ => .nil
  | .cons h h', hs => .cons (h.standard hs.inside.1) (h'.standard hs.inside.2)

theorem StepOf.standard {ts : List Token} {step : Step} :
    StepOf .accepted ts step → SlashesApart ts → StepOf .standard ts step
  | .self, _ => .self
  | .parent, _ => .parent
  | .full h h' h'', hs => .full h h' (h''.standard hs.right_of_append)

theorem MoreStepsOf.standard {ts : List Token} {steps : List Step} :
    MoreStepsOf .accepted ts steps → SlashesApart ts → MoreStepsOf .standard ts steps
  | .nil, _ => .nil
  | .slash h h', hs =>
    .slash (h.standard hs.tail.left_of_append) (h'.standard hs.tail.right_of_append)
  | .double h h', hs =>
    .double (h.standard hs.tail.left_of_append) (h'.standard hs.tail.right_of_append)

theorem PathOf.standard {ts : List Token} {start : Start} {steps : List Step} :
    PathOf .accepted ts start steps → SlashesApart ts → PathOf .standard ts start steps
  | .relative h h', hs =>
    .relative (h.standard hs.left_of_append) (h'.standard hs.right_of_append)
  | .root, _ => .root
  | .absolute h hne, hs => .absolute (h.standard hs) hne
  | .doubled _ h hne, hs => by
    obtain ⟨separator, more, rfl, hseparator⟩ := h.head_isSeparator hne
    exact absurd hseparator ((List.isChain_cons.mp hs).1 separator rfl rfl)
  | .filter h h' hne, hs =>
    .filter (h.standard hs.left_of_append) (h'.standard hs.right_of_append) hne

end

theorem standard_iff_slashesApart {level : Level} (h : ExprOf .accepted level ts e) :
    ExprOf .standard level ts e ↔ SlashesApart ts :=
  ⟨fun h => h.slashesApart, h.standard⟩

end XPath.Grammar
