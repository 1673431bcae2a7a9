import XPath.Expr.Parse
import XPath.Proofs.Grammar.Writable
import XPath.Proofs.Parser.Levels
import XPath.Proofs.Parser.Soundness
/-! Renderings read back as the expressions that they render. The induction is on the expressions that
have renderings; what the parser finds belongs to them by the derivation of the text. -/
namespace XPath
set_option autoImplicit false

open XPath.Parser XPath.Grammar

/-! ## Every writable expression has a rendering -/

section

theorem exists_quoted {text : String} (h : HasQuote text) : ∃ t, Quoted text t := by
  rcases h with h | h
  · exact ⟨_, '\'', Or.inl rfl, h, rfl⟩
  · exact ⟨_, '"', Or.inr rfl, h, rfl⟩

theorem NodeTest.Writable.exists_renders {test : NodeTest} (h : test.Writable) :
    ∃ t, test.Renders t := by
  cases test with
  | instruction target =>
    cases target with
    | none => exact ⟨_, rfl⟩
    | some target =>
      obtain ⟨u, hu⟩ := exists_quoted h
      exact ⟨_, u, hu, rfl⟩
  | _ => exact ⟨_, rfl⟩

variable {es : List Expr} {steps : List Step}

theorem exists_predicatesRender (h : ∀ e ∈ es, ∃ t, e.Renders t) : ∃ t, PredicatesRender es t := by
  induction es with
  | nil => exact ⟨_, .nil⟩
  | cons first more ih =>
    obtain ⟨t, ht⟩ := h first List.mem_cons_self
    obtain ⟨u, hu⟩ := ih fun e he => h e (List.mem_cons_of_mem _ he)
    exact ⟨_, .cons ht hu⟩

theorem exists_argumentsRender (h : ∀ e ∈ es, ∃ t, e.Renders t) : ∃ t, ArgumentsRender es t := by
  have hmore : ∀ more : List Expr, (∀ e ∈ more, ∃ t, e.Renders t) →
      ∃ t, MoreArgumentsRender more t := by
    intro more
    induction more with
    | nil => exact fun _ => ⟨_, .nil⟩
    | cons first more ih =>
      intro h
      obtain ⟨t, ht⟩ := h first List.mem_cons_self
      obtain ⟨u, hu⟩ := ih fun e he => h e (List.mem_cons_of_mem _ he)
      exact ⟨_, .cons ht hu⟩
  cases es with
  | nil => exact ⟨_, .nil⟩
  | cons first more =>
    obtain ⟨t, ht⟩ := h first List.mem_cons_self
    obtain ⟨u, hu⟩ := hmore more fun e he => h e (List.mem_cons_of_mem _ he)
    exact ⟨_, .cons ht hu⟩

theorem exists_stepsRender (htest : ∀ step ∈ steps, step.test.Writable)
    (h : ∀ step ∈ steps, ∀ e ∈ step.predicates, ∃ t, e.Renders t) : ∃ t, StepsRender steps t := by
  have hstep : ∀ step : Step, step.test.Writable → (∀ e ∈ step.predicates, ∃ t, e.Renders t) →
      ∃ t, StepRenders step t := by
    rintro ⟨axis, test, predicates⟩ htest h
    obtain ⟨t, ht⟩ := htest.exists_renders
    obtain ⟨u, hu⟩ := exists_predicatesRender h
    exact ⟨_, .mk ht hu⟩
  have hmore : ∀ more : List Step, (∀ step ∈ more, ∃ t, StepRenders step t) →
      ∃ t, MoreStepsRender more t := by
    intro more
    induction more with
    | nil => exact fun _ => ⟨_, .nil⟩
    | cons first more ih =>
      intro h
      obtain ⟨t, ht⟩ := h first List.mem_cons_self
      obtain ⟨u, hu⟩ := ih fun step hstep => h step (List.mem_cons_of_mem _ hstep)
      exact ⟨_, .cons ht hu⟩
  have hall : ∀ step ∈ steps, ∃ t, StepRenders step t :=
    fun step hmem => hstep step (htest step hmem) (h step hmem)
  cases steps with
  | nil => exact ⟨_, .nil⟩
  | cons first more =>
    obtain ⟨t, ht⟩ := hall first List.mem_cons_self
    obtain ⟨u, hu⟩ := hmore more fun step hstep => hall step (List.mem_cons_of_mem _ hstep)
    exact ⟨_, .cons ht hu⟩

theorem Expr.Writable.exists_renders {e : Expr} (h : e.Writable) : ∃ t, e.Renders t := by
  induction h with
  | literal htext =>
    obtain ⟨t, ht⟩ := exists_quoted htext
    exact ⟨t, .literal ht⟩
  | number hnumeral => exact ⟨_, .number hnumeral⟩
  | reference hname => exact ⟨_, .reference _⟩
  | call hname htype hargs ih =>
    obtain ⟨t, ht⟩ := exists_argumentsRender ih
    exact ⟨_, .call ht⟩
  | negate hoperand ih =>
    obtain ⟨t, ht⟩ := ih
    exact ⟨_, .negate ht⟩
  | @binary op left right hleft hright ihleft ihright =>
    obtain ⟨t, ht⟩ := ihleft
    obtain ⟨u, hu⟩ := ihright
    obtain ⟨spelling, hspelling⟩ : ∃ spelling, spelling ∈ op.spellings := by
      cases op with
      | compare comparison => cases comparison <;> exact ⟨_, List.mem_cons_self⟩
      | arith arithmetic => cases arithmetic <;> exact ⟨_, List.mem_cons_self⟩
      | _ => exact ⟨_, List.mem_cons_self⟩
    exact ⟨_, .binary hspelling ht hu⟩
  | filter hprimary hne hpredicates ihprimary ihpredicates =>
    obtain ⟨t, ht⟩ := ihprimary
    obtain ⟨u, hu⟩ := exists_predicatesRender ihpredicates
    exact ⟨_, .filter ht hu⟩
  | @path start steps hstart hroot htest hpredicates ihstart ihpredicates =>
    obtain ⟨u, hu⟩ := exists_stepsRender htest ihpredicates
    cases start with
    | context => exact ⟨_, .path .context hu⟩
    | root => exact ⟨_, .path .root hu⟩
    | nodes primary =>
      obtain ⟨t, ht⟩ := ihstart primary rfl
      exact ⟨_, .path (.nodes ht) hu⟩

end

/-! ## Renderings read back -/

/-- However a rendering of the expression goes on, the parser finds the expression in it. -/
structure ReadsBack (e : Expr) : Prop where
  nonblank : ∀ t, e.Renders t → ∀ rest, startsIn Text.isBlank (t ++ rest) = false
  reads : ∀ t, e.Renders t → ∀ n, t.length < n → ∀ rest, Stops rest →
    (exprWithin n (t ++ rest)).result = some (e, rest)

section
variable {expr : Parser Expr} {e : Expr} {es : List Expr} {steps : List Step} {n : Nat}
  {s t u rest : List Char}

theorem stops_cons {c : Char} (h : c ∈ [')', ']', ',']) : Stops (c :: rest) := begins_cons h

/-- A primary expression is an expression. -/
theorem orExpr_of_primary (hs : startsIn beginsPrimary s = true)
    (h : (primary expr s).result = some (e, rest.dropWhile Text.isBlank)) (hrest : Stops rest) :
    (orExpr expr s).result = some (e, rest) := by
  have hblank : startsIn Text.isBlank s = false :=
    startsIn_disjoint hs fun c hc => (other_of_beginsPrimary hc).1
  have hsign : (spaced (char '-') s).result = none := by
    refine spaced_char_none ?_
    rw [dropBlanks_eq_self hblank]
    exact startsIn_disjoint hs fun c hc => by simpa using (other_of_beginsPrimary hc).2
  rw [dropBlanks_eq_self hrest.nonblank] at h
  exact orExpr_of_pathExpr hsign (pathExpr_of_primary hblank h hrest.nonblank
    (hrest.startsIn (by decide)) (hrest.startsIn (by decide))) hrest

theorem numeral_append {value : Number} {w : List Char}
    (h : (numeral w).result = some (value, [])) (hrest : Stops rest) :
    (numeral (w ++ rest)).result = some (value, rest) := by
  obtain ⟨w', whole, fraction, heq, hw, hvalue, -⟩ := result_numeral.mp h
  obtain rfl : w = w' := by simpa using heq
  exact result_numeral.mpr ⟨w, whole, fraction, rfl, hw, hvalue, hrest.startsIn (by decide),
    Or.inr (hrest.startsIn (by decide))⟩

theorem numeral_begins {value : Number} {w : List Char}
    (h : (numeral w).result = some (value, [])) : startsIn beginsPrimary (w ++ rest) = true := by
  cases w with
  | nil => cases h
  | cons c w =>
    show beginsPrimary c = true
    by_contra hc
    rw [numeral_none] at h
    · cases h
    · exact Bool.eq_false_iff.mpr fun hdigit : c.isDigit = true => hc (by
        simp only [beginsPrimary, hdigit, Bool.or_true, Bool.true_or])
    · exact Bool.eq_false_iff.mpr fun hpoint : (c == '.') = true => hc (by
        simp only [beginsPrimary, hpoint, Bool.or_true, Bool.true_or])

/-! ### Predicates -/

theorem predicates_begin (h : PredicatesRender es u) : u = [] ∧ es = [] ∨ ∃ v, u = '[' :: v := by
  cases h with
  | nil => exact Or.inl ⟨rfl, rfl⟩
  | cons _ _ => exact Or.inr ⟨_, rfl⟩

theorem predicates_nonblank (h : PredicatesRender es u) (hrest : startsIn Text.isBlank rest = false) :
    startsIn Text.isBlank (u ++ rest) = false := by
  rcases predicates_begin h with ⟨rfl, -⟩ | ⟨v, rfl⟩
  · exact hrest
  · rfl

theorem predicates_repeat (h : PredicatesRender es u) (hes : ∀ e ∈ es, ReadsBack e)
    (hlength : u.length ≤ n) (hrest : startsIn Text.isBlank rest = false) :
    Repeats (predicate (exprWithin n)) (u ++ rest) es rest ∧ es.length ≤ u.length := by
  induction es generalizing u with
  | nil =>
    cases h
    exact ⟨.stop, Nat.le_refl _⟩
  | cons first more ih =>
    cases h with
    | @cons _ _ t v ht hv =>
    simp only [List.length_cons, List.length_append] at hlength ⊢
    obtain ⟨hmore, hcount⟩ := ih hv (fun e he => hes e (List.mem_cons_of_mem _ he)) (by omega)
    have hfirst : ReadsBack first := hes first List.mem_cons_self
    have hread := hfirst.reads t ht n (by omega) (']' :: (v ++ rest)) (stops_cons (by simp))
    rw [← dropBlanks_eq_self (hfirst.nonblank t ht _)] at hread
    have hpredicate := result_predicate hread rfl
    rw [dropBlanks_eq_self (predicates_nonblank hv hrest)] at hpredicate
    have htext : '[' :: (t ++ ']' :: v) ++ rest = '[' :: (t ++ ']' :: (v ++ rest)) := by simp
    rw [htext]
    exact ⟨.next hpredicate (takes_predicate _ _ hpredicate) hmore, by omega⟩

theorem predicates_read (h : PredicatesRender es u) (hes : ∀ e ∈ es, ReadsBack e)
    (hlength : u.length ≤ n) (hblank : startsIn Text.isBlank rest = false)
    (hsquare : startsIn (· == '[') rest = false) :
    (many (predicate (exprWithin n)) (u ++ rest)).result = some (es, rest) := by
  obtain ⟨hrepeat, hcount⟩ := predicates_repeat h hes hlength hblank
  rw [← dropBlanks_eq_self hblank] at hsquare
  refine result_many hrepeat ?_ (predicate_none hsquare)
  rw [List.length_append]
  omega

/-! ### Steps -/

/-- What can follow a step. -/
def AfterStep (rest : List Char) : Prop := Begins [')', ']', ',', '/'] rest

theorem nodeTest_nonblank {test : NodeTest} (h : test.Renders t) (hwritable : test.Writable) :
    startsIn Text.isBlank (t ++ rest) = false := by
  cases test with
  | name expected =>
    obtain rfl := h
    exact nonblank_of_isNameStart (startsIn_properName hwritable)
  | anyWith qualifier =>
    obtain rfl := h
    rw [List.append_assoc]
    exact nonblank_of_isNameStart (startsIn_simpleName hwritable)
  | instruction target =>
    cases target with
    | none =>
      obtain rfl := h
      rfl
    | some target =>
      obtain ⟨u, -, rfl⟩ := h
      rfl
  | _ =>
    obtain rfl := h
    rfl

theorem step_begins {next : Step} (h : StepRenders next t) :
    ∃ axis : Axis, ∃ u, t = axis.name.toList ++ ':' :: ':' :: u := by
  cases h
  exact ⟨_, _, rfl⟩

/-- Everything in the step reads back. -/
def StepReadsBack (next : Step) : Prop :=
  next.test.Writable ∧ ∀ e ∈ next.predicates, ReadsBack e

theorem step_reads {next : Step} (h : StepRenders next t) (hnext : StepReadsBack next)
    (hlength : t.length ≤ n) (hrest : AfterStep rest) :
    (step (exprWithin n) (t ++ rest)).result = some (next, rest) := by
  cases h with
  | @mk axis test predicates t u ht hu =>
  obtain ⟨htest, hpredicates⟩ := hnext
  simp only [List.length_append, List.length_cons] at hlength
  have hafter : AfterTest (u ++ rest) := by
    refine afterTest_of_begins ?_
    rcases predicates_begin hu with ⟨rfl, -⟩ | ⟨v, rfl⟩
    · exact hrest.imp (by simp)
    · exact begins_cons (by simp)
  have hread := predicates_read hu hpredicates (n := n) (by omega) (hrest.startsIn (by decide))
    (hrest.startsIn (by decide))
  have hstep := result_step axis (nodeTest_nonblank ht htest) (result_nodeTest ht htest hafter) hread
  simpa using hstep

theorem moreSteps_begin (h : MoreStepsRender steps u) :
    u = [] ∧ steps = [] ∨ ∃ v, u = '/' :: v := by
  cases h with
  | nil => exact Or.inl ⟨rfl, rfl⟩
  | cons _ _ => exact Or.inr ⟨_, rfl⟩

theorem moreSteps_afterStep (h : MoreStepsRender steps u) (hrest : Stops rest) :
    AfterStep (u ++ rest) := by
  rcases moreSteps_begin h with ⟨rfl, -⟩ | ⟨v, rfl⟩
  · exact hrest.imp (by simp)
  · exact begins_cons (by simp)

theorem moreSteps_repeat (h : MoreStepsRender steps u) (hsteps : ∀ next ∈ steps, StepReadsBack next)
    (hlength : u.length ≤ n) (hrest : Stops rest) :
    Repeats (nextSteps (exprWithin n)) (u ++ rest) (steps.map fun next => [next]) rest ∧
      steps.length ≤ u.length := by
  induction steps generalizing u with
  | nil =>
    cases h
    exact ⟨.stop, Nat.le_refl _⟩
  | cons first more ih =>
    cases h with
    | @cons _ _ t v ht hv =>
    simp only [List.length_cons, List.length_append] at hlength ⊢
    obtain ⟨hmore, hcount⟩ := ih hv (fun e he => hsteps e (List.mem_cons_of_mem _ he)) (by omega)
    have hread := step_reads ht (hsteps first List.mem_cons_self) (n := n) (by omega)
      (moreSteps_afterStep hv hrest)
    obtain ⟨axis, w, rfl⟩ := step_begins ht
    rw [List.append_assoc] at hread
    have hnext := result_nextSteps axis hread
    have htext : '/' :: (axis.name.toList ++ ':' :: ':' :: w ++ v) ++ rest =
        '/' :: (axis.name.toList ++ (':' :: ':' :: w ++ (v ++ rest))) := by simp
    rw [htext]
    exact ⟨.next hnext (takes_nextSteps _ _ hnext) hmore, by omega⟩

theorem moreSteps_read (h : MoreStepsRender steps u) (hsteps : ∀ next ∈ steps, StepReadsBack next)
    (hlength : u.length ≤ n) (hrest : Stops rest) :
    (moreSteps (exprWithin n) (u ++ rest)).result = some (steps, rest) := by
  obtain ⟨hrepeat, hcount⟩ := moreSteps_repeat h hsteps hlength hrest
  have hslash : startsIn (· == '/') (rest.dropWhile Text.isBlank) = false := by
    rw [dropBlanks_eq_self hrest.nonblank]
    exact hrest.startsIn (by decide)
  have hmany : (many (nextSteps (exprWithin n)) (u ++ rest)).result =
      some (steps.map fun next => [next], rest) := by
    refine result_many hrepeat ?_ (nextSteps_none hslash)
    rw [List.length_map, List.length_append]
    omega
  have hflatten : (steps.map fun next => [next]).flatten = steps := by
    rw [← List.flatMap_def]
    simp
  simp [moreSteps, hmany, hflatten]

/-! ### Expressions -/

/-- An expression in parentheses, and what follows it. -/
theorem parenthesized_reads (h : ReadsBack e) (ht : e.Renders t) (hlength : t.length < n) :
    (primary (exprWithin n) ('(' :: (t ++ ')' :: rest))).result =
      some (e, rest.dropWhile Text.isBlank) :=
  primary_parenthesized (h.reads t ht n hlength (')' :: rest) (stops_cons (by simp))) rfl

/-- To read back it is enough to be read by the loosest level, with room for what stands in
brackets. -/
theorem readsBack_of_orExpr
    (hblank : ∀ t, e.Renders t → ∀ rest, startsIn Text.isBlank (t ++ rest) = false)
    (h : ∀ t, e.Renders t → ∀ n, t.length ≤ n → ∀ rest, Stops rest →
      (orExpr (exprWithin n) (t ++ rest)).result = some (e, rest)) : ReadsBack e := by
  refine ⟨hblank, fun t ht n hlt rest hrest => ?_⟩
  obtain ⟨n, rfl⟩ := Nat.exists_eq_succ_of_ne_zero (Nat.ne_of_gt (Nat.zero_lt_of_lt hlt))
  exact h t ht n (Nat.le_of_lt_succ hlt) rest hrest

theorem readsBack_of_primary
    (hbegins : ∀ t, e.Renders t → ∀ rest, startsIn beginsPrimary (t ++ rest) = true)
    (h : ∀ t, e.Renders t → ∀ n, t.length ≤ n → ∀ rest, Stops rest →
      (primary (exprWithin n) (t ++ rest)).result = some (e, rest.dropWhile Text.isBlank)) :
    ReadsBack e := by
  refine readsBack_of_orExpr (fun t ht rest => ?_) fun t ht n hlength rest hrest => ?_
  · exact startsIn_disjoint (hbegins t ht rest) fun c hc => (other_of_beginsPrimary hc).1
  · exact orExpr_of_primary (hbegins t ht rest) (h t ht n hlength rest hrest) hrest

theorem readsBack_literal (text : String) : ReadsBack (.literal text) := by
  refine readsBack_of_primary (fun t ht rest => ?_) fun t ht n _ rest hrest => ?_
  · cases ht with
    | literal hquoted =>
    obtain ⟨quote, rfl | rfl, -, rfl⟩ := hquoted <;> rfl
  · cases ht with
    | literal hquoted =>
    obtain ⟨quote, hquote, hmem, rfl⟩ := hquoted
    exact primary_literal (result_literal.mpr ⟨quote, hquote, hmem, by simp⟩)

theorem readsBack_number (value : Number) : ReadsBack (.number value) := by
  refine readsBack_of_primary (fun t ht rest => ?_) fun t ht n _ rest hrest => ?_
  · cases ht with
    | number hnumeral => exact numeral_begins hnumeral
  · cases ht with
    | number hnumeral => exact primary_number (numeral_append hnumeral hrest)

theorem readsBack_reference {name : QName} (hname : IsProperName name) :
    ReadsBack (.reference name.text) := by
  refine readsBack_of_primary (fun t ht rest => ?_) fun t ht n _ rest hrest => ?_
  · cases ht
    rfl
  · cases ht
    exact primary_reference hname (hrest.startsIn (by decide)) (hrest.startsIn (by decide))

/-! ### Calls -/

theorem moreArguments_stop (h : MoreArgumentsRender es u) (hrest : Stops rest) :
    Stops (u ++ rest) := by
  cases h with
  | nil => exact hrest
  | cons _ _ => exact stops_cons (by simp)

theorem moreArguments_repeat (h : MoreArgumentsRender es u) (hes : ∀ e ∈ es, ReadsBack e)
    (hlength : u.length ≤ n) (hrest : Stops rest) :
    Repeats (do let _ ← spaced (char ','); exprWithin n) (u ++ rest) es rest ∧
      es.length ≤ u.length := by
  induction es generalizing u with
  | nil =>
    cases h
    exact ⟨.stop, Nat.le_refl _⟩
  | cons first more ih =>
    cases h with
    | @cons _ _ t v ht hv =>
    simp only [List.length_cons, List.length_append] at hlength ⊢
    obtain ⟨hmore, hcount⟩ := ih hv (fun e he => hes e (List.mem_cons_of_mem _ he)) (by omega)
    have hfirst : ReadsBack first := hes first List.mem_cons_self
    have hread := hfirst.reads t ht n (by omega) (v ++ rest) (moreArguments_stop hv hrest)
    have hblank : (' ' :: (t ++ (v ++ rest))).dropWhile Text.isBlank = t ++ (v ++ rest) :=
      dropBlanks_eq_self (hfirst.nonblank t ht _)
    have hnext : ((do let _ ← spaced (char ','); exprWithin n : Parser Expr)
        (',' :: ' ' :: (t ++ (v ++ rest)))).result = some (first, v ++ rest) := by
      rw [result_bind, result_spaced_char rfl, hblank]
      exact hread
    have htext : ',' :: ' ' :: (t ++ v) ++ rest = ',' :: ' ' :: (t ++ (v ++ rest)) := by simp
    rw [htext]
    exact ⟨.next hnext ((Takes.char ',').spaced.bind _ _ hnext) hmore, by omega⟩

theorem arguments_read (h : ArgumentsRender es u) (hes : ∀ e ∈ es, ReadsBack e)
    (hlength : u.length < n) :
    (separated (spaced (char ',')) (exprWithin n) (u ++ ')' :: rest)).result =
      some (es, ')' :: rest) := by
  have hrest : Stops (')' :: rest) := stops_cons (by simp)
  cases h with
  | nil => simp [separated, result_optional, exprWithin_none hrest.nonblank (hrest.startsIn (by decide))]
  | @cons first more t v ht hv =>
    rw [List.length_append] at hlength
    have hread := (hes first List.mem_cons_self).reads t ht n (by omega) _
      (moreArguments_stop hv hrest)
    obtain ⟨hrepeat, hcount⟩ := moreArguments_repeat hv
      (fun e he => hes e (List.mem_cons_of_mem _ he)) (n := n) (by omega) hrest
    have hstuck : ((do let _ ← spaced (char ','); exprWithin n : Parser Expr)
        (')' :: rest)).result = none := by
      rw [result_bind, spaced_char_none rfl]
      rfl
    have hmany : (many (do let _ ← spaced (char ','); exprWithin n) (v ++ ')' :: rest)).result =
        some (more, ')' :: rest) := by
      refine result_many hrepeat ?_ hstuck
      rw [List.length_append]
      omega
    unfold separated
    rw [result_bind, result_optional, List.append_assoc, hread]
    simp only [Option.bind_some]
    rw [result_bind, hmany]
    rfl

theorem readsBack_call {name : QName} (hname : IsProperName name)
    (htype : name.text ∉ Parser.nodeTypes)
    (hes : ∀ e ∈ es, ReadsBack e) : ReadsBack (.call name.text es) := by
  refine readsBack_of_primary (fun t ht rest => ?_) fun t ht n hlength rest hrest => ?_
  · cases ht with
    | call hargs =>
    rw [List.append_assoc]
    refine startsIn_of_imp (startsIn_properName hname) fun c hc => ?_
    simp [beginsPrimary, hc]
  · cases ht with
    | @call _ _ u hargs =>
    simp only [List.length_append, List.length_cons, List.length_nil] at hlength
    have hread := @arguments_read _ n _ rest hargs hes (by omega)
    simpa using primary_call hname htype hread

/-! ### Operators -/

/-- An expression in parentheses without predicates or steps after it is an operand. -/
theorem parenthesized_path {after : List Char} (h : ReadsBack e) (ht : e.Renders t)
    (hlength : t.length < n) (hrest : rest.dropWhile Text.isBlank = after)
    (hsquare : startsIn (· == '[') after = false) (hslash : startsIn (· == '/') after = false) :
    (pathExpr (exprWithin n) ('(' :: (t ++ ')' :: rest))).result = some (e, after) := by
  have hread := @parenthesized_reads _ _ _ rest h ht hlength
  have hblank : startsIn Text.isBlank after = false := by
    rw [← hrest]
    exact startsIn_dropWhile _
  rw [hrest] at hread
  exact pathExpr_of_primary rfl hread hblank hsquare hslash

theorem readsBack_negate (h : ReadsBack e) : ReadsBack (.negate e) := by
  refine readsBack_of_orExpr (fun t ht rest => ?_) fun t ht n hlength rest hrest => ?_
  · cases ht
    rfl
  · cases ht with
    | @negate _ u hu =>
    simp only [List.length_append, List.length_cons, List.length_nil] at hlength
    have hpath := parenthesized_path h hu (n := n) (by omega) (dropBlanks_eq_self hrest.nonblank)
      (hrest.startsIn (by decide)) (hrest.startsIn (by decide))
    have hunion : (unionExpr (exprWithin n) ('(' :: (u ++ ')' :: rest))).result = some (e, rest) :=
      leftGrouped_alone hpath (noOperator_of_stops hrest .union)
    have hsign : (spaced (char '-') ('-' :: '(' :: (u ++ ')' :: rest))).result =
        some ('-', '(' :: (u ++ ')' :: rest)) := result_spaced_char rfl
    have hsigns : (many (spaced (char '-')) ('-' :: '(' :: (u ++ ')' :: rest))).result =
        some (['-'], '(' :: (u ++ ')' :: rest)) :=
      result_many (.next hsign ((Takes.char '-').spaced _ _ hsign) .stop) (by simp)
        (spaced_char_none rfl)
    have hunary : (levelOf (exprWithin n) .unary ('-' :: '(' :: (u ++ ')' :: rest))).result =
        some (.negate e, rest) := by
      show (unaryExpr (exprWithin n) _).result = _
      unfold unaryExpr
      rw [result_bind, hsigns, Option.bind_some, result_bind, hunion]
      rfl
    have hread : (orExpr (exprWithin n) ('-' :: '(' :: (u ++ ')' :: rest))).result =
        some (.negate e, rest) :=
      @climb (exprWithin n) _ _ rest .or .unary (by decide) hunary
        (fun level _ _ => noOperator_of_stops hrest level) (fun hlt => absurd hlt (by decide))
    simpa using hread

theorem readsBack_binary {op : BinaryOp} {left right : Expr} (hleft : ReadsBack left)
    (hright : ReadsBack right) : ReadsBack (.binary op left right) := by
  refine readsBack_of_orExpr (fun t ht rest => ?_) fun t ht n hlength rest hrest => ?_
  · cases ht
    rfl
  · cases ht with
    | @binary _ _ _ t u spelling hspelling ht hu =>
    simp only [List.length_append, List.length_cons, List.length_nil] at hlength
    obtain ⟨hblank, hsquare, hslash, hother⟩ :=
      @other_of_operator (' ' :: '(' :: (u ++ ')' :: rest)) op spelling hspelling
    have hsign : ∀ s, (spaced (char '-') ('(' :: s)).result = none := fun s => spaced_char_none rfl
    -- The operand before the operator, from the level of paths up to the one below the operator.
    have hdrop : (' ' :: (spelling.toList ++ ' ' :: '(' :: (u ++ ')' :: rest))).dropWhile
        Text.isBlank = spelling.toList ++ ' ' :: '(' :: (u ++ ')' :: rest) :=
      dropBlanks_eq_self hblank
    have hbefore := parenthesized_path hleft ht (n := n) (by omega) hdrop hsquare hslash
    have hafter := parenthesized_path hright hu (n := n) (by omega) (dropBlanks_eq_self hrest.nonblank)
      (hrest.startsIn (by decide)) (hrest.startsIn (by decide))
    have hpath := tightness_le_path (levelOfOp op).operand
    have hleft := @climb (exprWithin n) _ _ _ (levelOfOp op).operand .path hpath hbefore
      (fun level _ hge => noOperator_of_head hblank
        (hother level (by rw [tightness_operand (levelOfOp_ne_path op)] at hge; omega)))
      (fun _ => hsign _)
    have hright := @climb (exprWithin n) _ _ _ (levelOfOp op).operand .path hpath hafter
      (fun level _ _ => noOperator_of_stops hrest level) (fun _ => hsign _)
    have hbinary := result_binary hspelling hleft rfl hright
      (noOperator_of_stops hrest (levelOfOp op))
    have hread := @climb (exprWithin n) _ _ rest .or (levelOfOp op) (Nat.zero_le _) hbinary
      (fun level _ _ => noOperator_of_stops hrest level) (fun _ => hsign _)
    have htext : '(' :: (t ++ ')' :: ' ' :: (spelling.toList ++ ' ' :: '(' :: (u ++ [')']))) ++ rest =
        '(' :: (t ++ ')' :: ' ' :: (spelling.toList ++ ' ' :: '(' :: (u ++ ')' :: rest))) := by simp
    rw [htext]
    exact hread

/-! ### Filters and paths -/

theorem readsBack_filter {primary : Expr} (hprimary : ReadsBack primary) (hne : es ≠ [])
    (hes : ∀ e ∈ es, ReadsBack e) : ReadsBack (.filter primary es) := by
  refine readsBack_of_orExpr (fun t ht rest => ?_) fun t ht n hlength rest hrest => ?_
  · cases ht
    rfl
  · cases ht with
    | @filter _ _ t u ht hu =>
    simp only [List.length_append, List.length_cons] at hlength
    have hdrop : (u ++ rest).dropWhile Text.isBlank = u ++ rest :=
      dropBlanks_eq_self (predicates_nonblank hu hrest.nonblank)
    have hread := @parenthesized_reads _ n _ (u ++ rest) hprimary ht (by omega)
    rw [hdrop] at hread
    have hpredicates := predicates_read hu hes (n := n) (by omega) hrest.nonblank
      (hrest.startsIn (by decide))
    have hslash : startsIn (· == '/') (rest.dropWhile Text.isBlank) = false := by
      rw [dropBlanks_eq_self hrest.nonblank]
      exact hrest.startsIn (by decide)
    have hpath := pathExpr_of_filterPath rfl (result_filterPath hread hpredicates
      (moreSteps_nil hslash))
    have hfilter : es.isEmpty = false := List.isEmpty_eq_false_iff.mpr hne
    rw [dropBlanks_eq_self hrest.nonblank, hfilter] at hpath
    have htext : '(' :: (t ++ ')' :: u) ++ rest = '(' :: (t ++ ')' :: (u ++ rest)) := by simp
    rw [htext]
    exact orExpr_of_pathExpr (spaced_char_none rfl) hpath hrest

theorem axis_begins (axis : Axis) :
    startsIn Text.isBlank (axis.name.toList ++ s) = false ∧
      startsIn (· == '-') (axis.name.toList ++ s) = false ∧
      startsIn (· == '/') (axis.name.toList ++ s) = false := by
  have hname : startsIn isNameStart (axis.name.toList ++ s) = true :=
    startsIn_simpleName (isSimpleName_axis axis)
  have hprimary : startsIn beginsPrimary (axis.name.toList ++ s) = true :=
    startsIn_of_imp hname fun c hc => by simp [beginsPrimary, hc]
  refine ⟨startsIn_disjoint hprimary fun c hc => (other_of_beginsPrimary hc).1,
    startsIn_disjoint hprimary fun c hc => by simpa using (other_of_beginsPrimary hc).2, ?_⟩
  exact startsIn_disjoint hname (beq_eq_false_of_class (by decide))

theorem orExpr_of_locationPath {after : List Char} (hblank : startsIn Text.isBlank s = false)
    (hsign : startsIn (· == '-') s = false) (hprimary : (primary expr s).result = none)
    {start : Start} {first more : List Step}
    (hstart : (pathStart expr s).result = some ((start, first), after))
    (hmore : (moreSteps expr after).result = some (more, rest)) (hrest : Stops rest) :
    (orExpr expr s).result = some (.path start (first ++ more), rest) := by
  have hpath := pathExpr_of_locationPath hblank hprimary (result_locationPath hstart hmore)
  rw [dropBlanks_eq_self hrest.nonblank] at hpath
  refine orExpr_of_pathExpr (spaced_char_none ?_) hpath hrest
  rwa [dropBlanks_eq_self hblank]

/-- A path from the context node or from the root. -/
theorem location_reads {start : Start} {first : Step} {more : List Step} {front : List Char}
    (hfront : StartRenders start front) (hstart : ∀ primary, start ≠ .nodes primary)
    (hu : StepsRender (first :: more) u) (hsteps : ∀ next ∈ first :: more, StepReadsBack next)
    (hlength : u.length ≤ n) (hrest : Stops rest) :
    (orExpr (exprWithin n) (front ++ u ++ rest)).result =
      some (.path start (first :: more), rest) := by
  cases hu with
  | @cons _ _ t v ht hv =>
  rw [List.length_append] at hlength
  have hstep := step_reads ht (hsteps first List.mem_cons_self) (n := n) (by omega)
    (moreSteps_afterStep hv hrest)
  have hmore := moreSteps_read hv (fun next hnext => hsteps next (List.mem_cons_of_mem _ hnext))
    (n := n) (by omega) hrest
  obtain ⟨axis, w, rfl⟩ := step_begins ht
  rw [List.append_assoc] at hstep
  obtain ⟨hblank, hsign, hslash⟩ := @axis_begins (':' :: ':' :: w ++ (v ++ rest)) axis
  cases hfront with
  | context =>
    have hprimary := @primary_axis (exprWithin n) (w ++ (v ++ rest)) axis [] (by simp)
    have hread := orExpr_of_locationPath hblank hsign hprimary
      (result_pathStart_context hslash hstep) hmore hrest
    simpa using hread
  | root =>
    rw [← dropBlanks_eq_self hblank] at hstep
    have hread := orExpr_of_locationPath rfl rfl primary_slash (result_pathStart_step hslash hstep)
      hmore hrest
    simpa using hread
  | nodes _ => exact absurd rfl (hstart _)

theorem root_reads (hrest : Stops rest) :
    (orExpr (exprWithin n) ('/' :: rest)).result = some (.path .root [], rest) := by
  have hnone : startsIn (· == '/') (rest.dropWhile Text.isBlank) = false := by
    rw [dropBlanks_eq_self hrest.nonblank]
    exact hrest.startsIn (by decide)
  exact orExpr_of_locationPath rfl rfl primary_slash (result_pathStart_root hrest)
    (moreSteps_nil hnone) hrest

/-- A path from the nodes of an expression. -/
theorem nodes_reads {primary : Expr} {first : Step} {more : List Step} (hprimary : ReadsBack primary)
    (ht : primary.Renders t) (hu : StepsRender (first :: more) u)
    (hsteps : ∀ next ∈ first :: more, StepReadsBack next)
    (hlength : t.length + u.length < n) (hrest : Stops rest) :
    (orExpr (exprWithin n) ('(' :: (t ++ ')' :: '/' :: (u ++ rest)))).result =
      some (.path (.nodes primary) (first :: more), rest) := by
  have hmoreSteps : MoreStepsRender (first :: more) ('/' :: u) := by
    cases hu with
    | cons ht hv => exact .cons ht hv
  have hread := @parenthesized_reads _ n _ ('/' :: (u ++ rest)) hprimary ht (by omega)
  have hmore := moreSteps_read hmoreSteps hsteps (n := n)
    (by rw [List.length_cons]; omega) hrest
  have hpredicates : (many (predicate (exprWithin n)) ('/' :: (u ++ rest))).result =
      some ([], '/' :: (u ++ rest)) := result_many_nil (predicate_none rfl)
  have hpath := pathExpr_of_filterPath rfl (result_filterPath hread hpredicates hmore)
  rw [dropBlanks_eq_self hrest.nonblank] at hpath
  exact orExpr_of_pathExpr (spaced_char_none rfl) hpath hrest

theorem readsBack_path {start : Start}
    (hstart : ∀ primary, start = .nodes primary → ReadsBack primary)
    (hroot : steps = [] → start = .root) (hsteps : ∀ next ∈ steps, StepReadsBack next) :
    ReadsBack (.path start steps) := by
  refine readsBack_of_orExpr (fun t ht rest => ?_) fun t ht n hlength rest hrest => ?_
  · cases ht with
    | @path _ _ front u hfront hu =>
    cases hfront with
    | root => rfl
    | nodes _ => rfl
    | context =>
      cases hu with
      | nil => cases hroot rfl
      | cons ht _ =>
        obtain ⟨axis, w, rfl⟩ := step_begins ht
        simpa using (axis_begins axis).1
  · cases ht with
    | @path _ _ front u hfront hu =>
    rw [List.length_append] at hlength
    cases steps with
    | nil =>
      obtain rfl := hroot rfl
      cases hfront
      cases hu
      exact root_reads hrest
    | cons first more =>
      cases start with
      | nodes primary =>
        cases hfront with
        | @nodes _ t ht =>
        simp only [List.length_append, List.length_cons, List.length_nil] at hlength
        have hread := nodes_reads (hstart primary rfl) ht hu hsteps (n := n) (by omega) hrest
        simpa using hread
      | context => exact location_reads hfront (by simp) hu hsteps (by omega) hrest
      | root => exact location_reads hfront (by simp) hu hsteps (by omega) hrest

/-- Every expression that has renderings is read back from each of them. -/
theorem Expr.Writable.readsBack (h : e.Writable) : ReadsBack e := by
  induction h with
  | literal _ => exact readsBack_literal _
  | number _ => exact readsBack_number _
  | reference hname => exact readsBack_reference hname
  | call hname htype _ ih => exact readsBack_call hname htype ih
  | negate _ ih => exact readsBack_negate ih
  | binary _ _ ihleft ihright => exact readsBack_binary ihleft ihright
  | filter _ hne _ ihprimary ihpredicates => exact readsBack_filter ihprimary hne ihpredicates
  | path _ hroot htest _ ihstart ihpredicates =>
    exact readsBack_path ihstart hroot fun next hnext => ⟨htest next hnext, ihpredicates next hnext⟩

/-! ## Whole texts -/

theorem writable_of_parse {text : String} (h : Expr.parse text = .ok e) : e.Writable := by
  unfold Expr.parse at h
  dsimp only at h
  split at h
  · next e' rest hresult =>
    split at h
    · obtain rfl := Except.ok.inj h
      obtain ⟨tokens, hscan, hderives⟩ := sound_expr _ _ _ hresult
      exact hderives.writable hscan.proper
    · split at h <;> cases h
  · cases h

theorem parse_of_reads (h : ReadsBack e) (ht : e.Renders t) :
    Expr.parse (String.ofList t) = .ok e := by
  have hread := h.reads t ht (t.length + 1) (Nat.lt_succ_self _) [] (fun _ h => nomatch h)
  rw [List.append_nil] at hread
  have hexpr : (Parser.expr t).result = some (e, []) := hread
  unfold Expr.parse
  rw [String.toList_ofList]
  simp only [hexpr, List.dropWhile_nil, List.isEmpty_nil, if_true]

/-- What has been read from a text can be rendered, and every rendering reads back as the same
expression. -/
theorem parse_renders {text : String} (h : Expr.parse text = .ok e) :
    (∃ t, e.Renders t) ∧ ∀ t, e.Renders t → Expr.parse (String.ofList t) = .ok e := by
  have hwritable := writable_of_parse h
  exact ⟨hwritable.exists_renders, fun t ht => parse_of_reads hwritable.readsBack ht⟩

theorem parse_renders_descendants :
    ∃ e, Expr.parse "//a[1] < -$b" = .ok e ∧ (∃ t, e.Renders t) ∧
      ∀ t, e.Renders t → Expr.parse (String.ofList t) = .ok e := by
  obtain ⟨e, he⟩ := @exists_parse "//a[1] < -$b" (by decide +kernel)
  exact ⟨e, he, parse_renders he⟩

end

end XPath
