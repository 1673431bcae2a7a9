import XPath.Expr.Basic
/-! Properties of an expression and of everything inside of it: operands, arguments, predicates and
the nodes at which paths start. -/
namespace XPath
set_option autoImplicit false

mutual

/-- `P` holds of the expression and of every expression inside of it, `Q` of every step. -/
def Expr.Everywhere (P : Expr → Prop) (Q : Step → Prop) : Expr → Prop
  | .literal text => P (.literal text)
  | .number value => P (.number value)
  | .reference name => P (.reference name)
  | .call function args => P (.call function args) ∧ EverywhereInAll P Q args
  | .negate operand => P (.negate operand) ∧ operand.Everywhere P Q
  | .binary op left right =>
    P (.binary op left right) ∧ left.Everywhere P Q ∧ right.Everywhere P Q
  | .filter primary predicates =>
    P (.filter primary predicates) ∧ primary.Everywhere P Q ∧ EverywhereInAll P Q predicates
  | .path start steps =>
    P (.path start steps) ∧ start.Everywhere P Q ∧ EverywhereInSteps P Q steps

def Start.Everywhere (P : Expr → Prop) (Q : Step → Prop) : Start → Prop
  | .context => True
  | .root => True
  | .nodes primary => primary.Everywhere P Q

def Step.Everywhere (P : Expr → Prop) (Q : Step → Prop) : Step → Prop
  | .mk axis test predicates => Q (.mk axis test predicates) ∧ EverywhereInAll P Q predicates

def EverywhereInAll (P : Expr → Prop) (Q : Step → Prop) : List Expr → Prop
  | [] => True
  | expr :: rest => expr.Everywhere P Q ∧ EverywhereInAll P Q rest

def EverywhereInSteps (P : Expr → Prop) (Q : Step → Prop) : List Step → Prop
  | [] => True
  | step :: rest => step.Everywhere P Q ∧ EverywhereInSteps P Q rest

end

variable {P P' : Expr → Prop} {Q Q' : Step → Prop}

mutual

theorem Expr.Everywhere.imp (hP : ∀ e, P e → P' e) (hQ : ∀ step, Q step → Q' step) {e : Expr}
    (h : e.Everywhere P Q) : e.Everywhere P' Q' := by
  cases e with
  | literal text => exact hP _ h
  | number value => exact hP _ h
  | reference name => exact hP _ h
  | call function args => exact ⟨hP _ h.1, everywhereInAll_imp hP hQ h.2⟩
  | negate operand => exact ⟨hP _ h.1, h.2.imp hP hQ⟩
  | binary op left right => exact ⟨hP _ h.1, h.2.1.imp hP hQ, h.2.2.imp hP hQ⟩
  | filter primary predicates =>
    exact ⟨hP _ h.1, h.2.1.imp hP hQ, everywhereInAll_imp hP hQ h.2.2⟩
  | path start steps => exact ⟨hP _ h.1, h.2.1.imp hP hQ, everywhereInSteps_imp hP hQ h.2.2⟩

theorem Start.Everywhere.imp (hP : ∀ e, P e → P' e) (hQ : ∀ step, Q step → Q' step) {start : Start}
    (h : start.Everywhere P Q) : start.Everywhere P' Q' := by
  cases start with
  | context => trivial
  | root => trivial
  | nodes primary => exact Expr.Everywhere.imp hP hQ h

theorem Step.Everywhere.imp (hP : ∀ e, P e → P' e) (hQ : ∀ step, Q step → Q' step) {step : Step}
    (h : step.Everywhere P Q) : step.Everywhere P' Q' := by
  cases step with
  | mk axis test predicates => exact ⟨hQ _ h.1, everywhereInAll_imp hP hQ h.2⟩

theorem everywhereInAll_imp (hP : ∀ e, P e → P' e) (hQ : ∀ step, Q step → Q' step)
    {exprs : List Expr} (h : EverywhereInAll P Q exprs) : EverywhereInAll P' Q' exprs := by
  cases exprs with
  | nil => trivial
  | cons e rest => exact ⟨h.1.imp hP hQ, everywhereInAll_imp hP hQ h.2⟩

theorem everywhereInSteps_imp (hP : ∀ e, P e → P' e) (hQ : ∀ step, Q step → Q' step)
    {steps : List Step} (h : EverywhereInSteps P Q steps) : EverywhereInSteps P' Q' steps := by
  cases steps with
  | nil => trivial
  | cons step rest => exact ⟨h.1.imp hP hQ, everywhereInSteps_imp hP hQ h.2⟩

end

mutual

/-- What holds of every expression and of every step holds everywhere. -/
theorem Expr.everywhere_of_forall (hP : ∀ e, P e) (hQ : ∀ step, Q step) (e : Expr) :
    e.Everywhere P Q := by
  cases e with
  | literal text => exact hP _
  | number value => exact hP _
  | reference name => exact hP _
  | call function args => exact ⟨hP _, everywhereInAll_of_forall hP hQ args⟩
  | negate operand => exact ⟨hP _, operand.everywhere_of_forall hP hQ⟩
  | binary op left right =>
    exact ⟨hP _, left.everywhere_of_forall hP hQ, right.everywhere_of_forall hP hQ⟩
  | filter primary predicates =>
    exact ⟨hP _, primary.everywhere_of_forall hP hQ, everywhereInAll_of_forall hP hQ predicates⟩
  | path start steps =>
    exact ⟨hP _, start.everywhere_of_forall hP hQ, everywhereInSteps_of_forall hP hQ steps⟩

theorem Start.everywhere_of_forall (hP : ∀ e, P e) (hQ : ∀ step, Q step) (start : Start) :
    start.Everywhere P Q := by
  cases start with
  | context => trivial
  | root => trivial
  | nodes primary => exact primary.everywhere_of_forall hP hQ

theorem Step.everywhere_of_forall (hP : ∀ e, P e) (hQ : ∀ step, Q step) (step : Step) :
    step.Everywhere P Q := by
  cases step with
  | mk axis test predicates => exact ⟨hQ _, everywhereInAll_of_forall hP hQ predicates⟩

theorem everywhereInAll_of_forall (hP : ∀ e, P e) (hQ : ∀ step, Q step) (exprs : List Expr) :
    EverywhereInAll P Q exprs := by
  cases exprs with
  | nil => trivial
  | cons e rest => exact ⟨e.everywhere_of_forall hP hQ, everywhereInAll_of_forall hP hQ rest⟩

theorem everywhereInSteps_of_forall (hP : ∀ e, P e) (hQ : ∀ step, Q step) (steps : List Step) :
    EverywhereInSteps P Q steps := by
  cases steps with
  | nil => trivial
  | cons step rest =>
    exact ⟨step.everywhere_of_forall hP hQ, everywhereInSteps_of_forall hP hQ rest⟩

end

/-- Whether an expression is the value of a variable. -/
def Expr.isReference : Expr → Bool
  | reference _ => true
  | _ => false

/-- Expressions without variables. -/
def Expr.Closed (e : Expr) : Prop := e.Everywhere (fun e => e.isReference = false) fun _ => True

end XPath
