import Mathlib.Data.List.Defs
import XPath.Proofs.Eval.Isomorphism
import XPath.Proofs.Result.Materialize
/-! Variables whose values are lists of nodes, taken as sets. Every consumer of a node-set sees only
which nodes are its members, except for `count` and `sum` where they are called on a variable
itself: these two go through the list, which is in order and free of repetitions only where an
expression has made it. -/
namespace XPath
set_option autoImplicit false

/-- Lists with the same members, in any order and with any repetitions. -/
def SameMembers (ids ids' : List NodeId) : Prop := ∀ x, x ∈ ids ↔ x ∈ ids'

/-- Bindings of the same names to equal scalars or to the same sets of nodes. -/
def SameSets (bindings bindings' : String → Option Value) : Prop :=
  ∀ name, Option.Rel (Value.Related SameMembers) (bindings name) (bindings' name)

variable {d : Document} {scope : Scope} {focus : Focus} {ids ids' : List NodeId}
  {v v' w w' u u' r r' : Value} {args args' : List Value}

/-! ## Members -/

namespace SameMembers

theorem refl (ids : List NodeId) : SameMembers ids ids := fun _ => Iff.rfl

variable (h : SameMembers ids ids')
include h

theorem contains_eq : ids.contains = ids'.contains := by
  funext x
  rw [Bool.eq_iff_iff, List.contains_iff_mem, List.contains_iff_mem]
  exact h x

theorem inOrder_eq : d.inOrder ids = d.inOrder ids' := by
  rw [Document.inOrder, Document.inOrder, h.contains_eq]

theorem first?_eq : d.first? ids = d.first? ids' := by
  rw [Document.first?, Document.first?, h.contains_eq]

theorem firstText_eq : Value.firstText d ids = Value.firstText d ids' := by
  rw [Value.firstText, Value.firstText, h.first?_eq]

theorem isEmpty_eq : ids.isEmpty = ids'.isEmpty := by
  rw [Bool.eq_iff_iff, List.isEmpty_iff, List.isEmpty_iff, List.eq_nil_iff_forall_not_mem,
    List.eq_nil_iff_forall_not_mem]
  exact forall_congr' fun x => not_congr (h x)

theorem identified_eq {root : NodeId} : d.identified root (ids.map d.stringValue) =
    d.identified root (ids'.map d.stringValue) := by
  have hcontains : ∀ token, List.contains ((ids.map d.stringValue).flatMap
        (fun text => Text.words Text.isSpace text.toList)) token =
      List.contains ((ids'.map d.stringValue).flatMap
        (fun text => Text.words Text.isSpace text.toList)) token := by
    intro token
    rw [Bool.eq_iff_iff, List.contains_iff_mem, List.contains_iff_mem]
    simp only [List.mem_flatMap, List.mem_map, h _]
  unfold Document.identified Document.isIdentifiedBy
  simp only [hcontains]

end SameMembers

/-! ## Values -/

section Values

theorem sameSet_refl (v : Value) : v.Related SameMembers v := by
  cases v with
  | nodes ids => exact .nodes (.refl ids)
  | string text => exact .string rfl
  | number value => exact .number rfl
  | boolean value => exact .boolean rfl

variable (hv : v.Related SameMembers v') (hw : w.Related SameMembers w')
include hv

theorem sameSet_cases : v = v' ∨ ∃ ids ids', v = .nodes ids ∧ v' = .nodes ids' ∧
    SameMembers ids ids' := by
  cases hv with
  | nodes h => exact .inr ⟨_, _, rfl, rfl, h⟩
  | string h => exact .inl (congrArg Value.string h)
  | number h => exact .inl (congrArg Value.number h)
  | boolean h => exact .inl (congrArg Value.boolean h)

/-- What sees only the members of node-sets comes to the same for values with the same ones. -/
theorem eq_of_sameSet {α : Type} (f : Value → α)
    (hf : ∀ {ids ids'}, SameMembers ids ids' → f (.nodes ids) = f (.nodes ids')) : f v = f v' := by
  obtain rfl | ⟨ids, ids', rfl, rfl, h⟩ := sameSet_cases hv
  · rfl
  · exact hf h

theorem sameSet_kind : v.kind = v'.kind := eq_of_sameSet hv Value.kind fun _ => rfl

theorem sameSet_truth : v.truth = v'.truth :=
  eq_of_sameSet hv Value.truth fun h => congrArg Bool.not h.isEmpty_eq

theorem sameSet_toText : v.toText d = v'.toText d :=
  eq_of_sameSet hv (Value.toText d) fun h => h.firstText_eq

theorem sameSet_toNumber : v.toNumber d = v'.toNumber d :=
  eq_of_sameSet hv (Value.toNumber d) fun h => congrArg Number.parse h.firstText_eq

theorem sameSet_toScalar : v.toScalar d = v'.toScalar d :=
  eq_of_sameSet hv (Value.toScalar d) fun h => congrArg Scalar.string h.firstText_eq

theorem sameSet_members : v.members d = v'.members d :=
  eq_of_sameSet hv (Value.members d) fun h => h.inOrder_eq

theorem sameSet_selects (position : Nat) : v.selects position = v'.selects position :=
  eq_of_sameSet hv (Value.selects position) fun h => congrArg Bool.not h.isEmpty_eq

theorem sameSet_toNodeSet (purpose : String) :
    SameOutcome SameMembers (v.toNodeSet purpose) (v'.toNodeSet purpose) := by
  cases hv with
  | nodes h => exact .ok h
  | string h => exact .error _
  | number h => exact .error _
  | boolean h => exact .error _

theorem sameSet_scalars (withBoolean : Bool) (a : Scalar) :
    a ∈ v.scalars d withBoolean ↔ a ∈ v'.scalars d withBoolean := by
  refine Iff.of_eq (eq_of_sameSet hv (fun v => a ∈ v.scalars d withBoolean) fun h => ?_)
  cases withBoolean with
  | true => simp [Value.scalars, h.isEmpty_eq]
  | false => simp [Value.scalars, h _]

theorem sameSet_isBoolean : v.isBoolean = v'.isBoolean :=
  eq_of_sameSet hv Value.isBoolean fun _ => rfl

theorem sameSet_shortcut? (op : BinaryOp) : op.shortcut? v = op.shortcut? v' :=
  eq_of_sameSet hv op.shortcut? fun h => by
    have htruth := sameSet_truth (.nodes h)
    cases op with
    | or => rw [BinaryOp.shortcut?, BinaryOp.shortcut?, htruth]
    | and => rw [BinaryOp.shortcut?, BinaryOp.shortcut?, htruth]
    | compare comparison => rfl
    | arith arithmetic => rfl
    | union => rfl

include hw

theorem sameSet_compare (comparison : Comparison) :
    v.compare d comparison w = v'.compare d comparison w' := by
  unfold Value.compare
  rw [sameSet_isBoolean hv, sameSet_isBoolean hw, Bool.eq_iff_iff]
  simp only [List.any_eq_true, sameSet_scalars hv, sameSet_scalars hw]

theorem sameSet_apply (op : BinaryOp) : op.apply d v w = op.apply d v' w' := by
  cases op with
  | or => rw [BinaryOp.apply, BinaryOp.apply, sameSet_truth hv, sameSet_truth hw]
  | and => rw [BinaryOp.apply, BinaryOp.apply, sameSet_truth hv, sameSet_truth hw]
  | compare comparison => rw [BinaryOp.apply, BinaryOp.apply, sameSet_compare hv hw]
  | arith arithmetic =>
    rw [BinaryOp.apply, BinaryOp.apply, sameSet_toNumber hv, sameSet_toNumber hw]
  | union =>
    rw [BinaryOp.apply, BinaryOp.apply]
    refine (sameSet_toNodeSet hv _).bind_eq fun first first' h => ?_
    refine (sameSet_toNodeSet hw _).bind_eq fun second second' h' => ?_
    have hunion : SameMembers (first ++ second) (first' ++ second') := fun x => by
      rw [List.mem_append, List.mem_append, h x, h' x]
    exact congrArg (Except.ok ∘ Value.nodes) hunion.inOrder_eq

end Values

/-! ## Core functions -/

/-- Two lists come to the same in a function that goes through its argument as a list. -/
structure CoreFunction.CountsAlike (function : CoreFunction) (d : Document)
    (ids ids' : List NodeId) : Prop where
  count : function = .count → ids.length = ids'.length
  sum : function = .sum → sumOf d ids = sumOf d ids'

section Functions

theorem map_eq_of_forall₂ {α : Type} {f : Value → α}
    (hargs : List.Forall₂ (Value.Related SameMembers) args args')
    (hf : ∀ {v v'}, Value.Related SameMembers v v' → f v = f v') : args.map f = args'.map f := by
  induction hargs with
  | nil => rfl
  | cons hv _ ih => rw [List.map_cons, List.map_cons, hf hv, ih]

variable (function : CoreFunction) (hv : v.Related SameMembers v') (hw : w.Related SameMembers w')
  (hu : u.Related SameMembers u') (hr : r.Related SameMembers r')
  (hargs : List.Forall₂ (Value.Related SameMembers) args args')

include hv

theorem ofFirst_eq (say : NodeId → String) :
    function.ofFirst d say v = function.ofFirst d say v' :=
  eq_of_sameSet hv (function.ofFirst d say) fun h => by
    refine congrArg (Except.ok ∘ Value.string) ?_
    rw [h.first?_eq]

theorem apply_one_eq (hcounts : ∀ ids ids', v = .nodes ids → v' = .nodes ids' →
      function.CountsAlike scope.document ids ids') :
    function.apply scope focus [v] = function.apply scope focus [v'] := by
  cases function with
  | count =>
    obtain rfl | ⟨ids, ids', rfl, rfl, -⟩ := sameSet_cases hv
    · rfl
    · exact congrArg (Except.ok ∘ Value.number ∘ Number.ofNat) ((hcounts _ _ rfl rfl).count rfl)
  | sum =>
    obtain rfl | ⟨ids, ids', rfl, rfl, -⟩ := sameSet_cases hv
    · rfl
    · exact congrArg (Except.ok ∘ Value.number) ((hcounts _ _ rfl rfl).sum rfl)
  | id =>
    exact eq_of_sameSet hv (fun v => CoreFunction.id.apply scope focus [v]) fun h =>
      congrArg (Except.ok ∘ Value.nodes) h.identified_eq
  | localName => exact ofFirst_eq .localName hv _
  | namespaceUri => exact ofFirst_eq .namespaceUri hv _
  | qualifiedName => exact ofFirst_eq .qualifiedName hv _
  | _ =>
    simp only [CoreFunction.apply, sameSet_toText hv, sameSet_toNumber hv, sameSet_truth hv,
      List.length_cons]

include hw

theorem apply_two_eq :
    function.apply scope focus [v, w] = function.apply scope focus [v', w'] := by
  cases function with
  | id => rw [Scope.Iso.apply_id_cons_cons, Scope.Iso.apply_id_cons_cons]; rfl
  | _ =>
    simp only [CoreFunction.apply, sameSet_toText hv, sameSet_toText hw, sameSet_toNumber hw,
      List.map_cons, List.length_cons]

include hu

theorem apply_three_eq :
    function.apply scope focus [v, w, u] = function.apply scope focus [v', w', u'] := by
  cases function with
  | id => rw [Scope.Iso.apply_id_cons_cons, Scope.Iso.apply_id_cons_cons]; rfl
  | _ =>
    simp only [CoreFunction.apply, sameSet_toText hv, sameSet_toText hw, sameSet_toText hu,
      sameSet_toNumber hw, sameSet_toNumber hu, List.map_cons, List.length_cons]

include hr hargs

/-- More arguments than three are for `concat` only. -/
theorem apply_more_eq : function.apply scope focus (v :: w :: u :: r :: args) =
    function.apply scope focus (v' :: w' :: u' :: r' :: args') := by
  have hall := List.Forall₂.cons hv (.cons hw (.cons hu (.cons hr hargs)))
  cases function with
  | id => rw [Scope.Iso.apply_id_cons_cons, Scope.Iso.apply_id_cons_cons, hall.length_eq]
  | concat =>
    refine congrArg (Except.ok ∘ Value.string ∘ String.join) ?_
    exact map_eq_of_forall₂ hall fun hv => sameSet_toText hv
  | _ => simp only [CoreFunction.apply, hall.length_eq]

end Functions

theorem apply_eq (function : CoreFunction)
    (hargs : List.Forall₂ (Value.Related SameMembers) args args')
    (hcounts : ∀ ids ids', args = [.nodes ids] → args' = [.nodes ids'] →
      function.CountsAlike scope.document ids ids') :
    function.apply scope focus args = function.apply scope focus args' := by
  rcases hargs with _ | ⟨hv, _ | ⟨hw, _ | ⟨hu, _ | ⟨hr, hargs⟩⟩⟩⟩
  · rfl
  · exact apply_one_eq function hv fun ids ids' h h' => hcounts ids ids' (by rw [h]) (by rw [h'])
  · exact apply_two_eq function hv hw
  · exact apply_three_eq function hv hw hu
  · exact apply_more_eq function hv hw hu hr hargs

theorem call_eq {name : String} (hargs : List.Forall₂ (Value.Related SameMembers) args args')
    (hcounts : ∀ function ids ids', scope.functions.find? name = some (.core function) →
      args = [.nodes ids] → args' = [.nodes ids'] → function.CountsAlike scope.document ids ids') :
    scope.call focus name args = scope.call focus name args' := by
  unfold Scope.call
  split
  · rfl
  · next function hfind =>
    exact apply_eq function hargs fun ids ids' => hcounts function ids ids' hfind
  · rw [map_eq_of_forall₂ hargs fun hv => sameSet_toScalar hv]

/-! ## Expressions -/

/-- Where a function that goes through a list is called on a variable itself, the two lists come to
the same in it. -/
def Expr.CountsAlike (library : FunctionLibrary) (d : Document)
    (bindings bindings' : String → Option Value) : Expr → Prop
  | .call name [.reference x] => ∀ function ids ids', library.find? name = some (.core function) →
      bindings x = some (.nodes ids) → bindings' x = some (.nodes ids') →
      function.CountsAlike d ids ids'
  | _ => True

/-- What an expression comes to with two bindings of the variables: the same, unless it is itself a
variable. -/
inductive Expr.Agrees (bindings bindings' : String → Option Value) : Expr → Value → Value → Prop
  | same (e : Expr) (v : Value) : Agrees bindings bindings' e v v
  | bound {name : String} {v v' : Value} : bindings name = some v → bindings' name = some v' →
    v.Related SameMembers v' → Agrees bindings bindings' (.reference name) v v'

inductive ArgumentsAgree (bindings bindings' : String → Option Value) :
    List Expr → List Value → List Value → Prop
  | nil : ArgumentsAgree bindings bindings' [] [] []
  | cons {e : Expr} {rest : List Expr} {v v' : Value} {args args' : List Value} :
    e.Agrees bindings bindings' v v' → ArgumentsAgree bindings bindings' rest args args' →
    ArgumentsAgree bindings bindings' (e :: rest) (v :: args) (v' :: args')

variable {bindings' : String → Option Value} {e : Expr}

theorem Expr.Agrees.related (h : e.Agrees scope.bindings bindings' v v') :
    v.Related SameMembers v' := by
  cases h with
  | same => exact sameSet_refl v
  | bound _ _ h => exact h

theorem ArgumentsAgree.related {exprs : List Expr}
    (h : ArgumentsAgree scope.bindings bindings' exprs args args') :
    List.Forall₂ (Value.Related SameMembers) args args' := by
  induction h with
  | nil => exact .nil
  | cons h _ ih => exact .cons h.related ih

theorem agrees_of_eq {m m' : Except EvalError Value} (h : m = m') :
    SameOutcome (e.Agrees scope.bindings bindings') m m' := by
  subst h
  cases m with
  | error error => exact .error error
  | ok value => exact .ok (.same e value)

/-- The scope with other values of the variables. -/
abbrev Scope.rebind (scope : Scope) (bindings : String → Option Value) : Scope :=
  { scope with bindings }

/-- What the forms of calls demand for two bindings of the variables. -/
abbrev Scope.CountsAlike (scope : Scope) (bindings' : String → Option Value) : Expr → Prop :=
  Expr.CountsAlike scope.functions scope.document scope.bindings bindings'

/-- Single arguments that differ are the values of a variable. -/
theorem ArgumentsAgree.countsAlike {name : String} {exprs : List Expr}
    (h : ArgumentsAgree scope.bindings bindings' exprs args args')
    (he : scope.CountsAlike bindings' (.call name exprs))
    (function : CoreFunction) (ids ids' : List NodeId)
    (hfind : scope.functions.find? name = some (.core function))
    (hargs : args = [.nodes ids]) (hargs' : args' = [.nodes ids']) :
    function.CountsAlike scope.document ids ids' := by
  subst hargs hargs'
  cases h with
  | cons h hrest =>
    cases hrest
    cases h with
    | same => exact ⟨fun _ => rfl, fun _ => rfl⟩
    | bound hids hids' => exact he function ids ids' hfind hids hids'

mutual

theorem agrees_evaluate (h : SameSets scope.bindings bindings') (focus : Focus) (e : Expr)
    (he : e.Everywhere (scope.CountsAlike bindings') fun _ => True) :
    SameOutcome (e.Agrees scope.bindings bindings') (e.evaluate scope focus)
      (e.evaluate (scope.rebind bindings') focus) := by
  cases e with
  | literal text => exact agrees_of_eq rfl
  | number value => exact agrees_of_eq rfl
  | reference name =>
    have hname := h name
    cases hv : scope.bindings name with
    | none =>
      rw [hv] at hname
      cases hv' : bindings' name with
      | none =>
        rw [Expr.evaluate, Expr.evaluate]
        simp only [hv, hv']
        exact .error _
      | some v' => rw [hv'] at hname; cases hname
    | some v =>
      rw [hv] at hname
      cases hv' : bindings' name with
      | none => rw [hv'] at hname; cases hname
      | some v' =>
        rw [hv'] at hname
        cases hname with
        | some hrelated =>
          rw [Expr.evaluate, Expr.evaluate]
          simp only [hv, hv']
          exact .ok (.bound hv hv' hrelated)
  | call name args =>
    rw [Expr.evaluate, Expr.evaluate]
    refine agrees_of_eq ?_
    refine (agrees_evaluateAll h focus args he.2).bind_eq fun values values' hvalues => ?_
    exact call_eq hvalues.related (hvalues.countsAlike he.1)
  | negate operand =>
    rw [Expr.evaluate, Expr.evaluate]
    refine agrees_of_eq ?_
    refine (agrees_evaluate h focus operand he.2).bind_eq fun value value' hvalue => ?_
    rw [sameSet_toNumber hvalue.related]
  | binary op left right =>
    rw [Expr.evaluate, Expr.evaluate]
    refine agrees_of_eq ?_
    refine (agrees_evaluate h focus left he.2.1).bind_eq fun first first' hfirst => ?_
    rw [sameSet_shortcut? hfirst.related]
    split
    · rfl
    · exact (agrees_evaluate h focus right he.2.2).bind_eq fun second second' hsecond =>
        sameSet_apply hfirst.related hsecond.related op
  | filter primary predicates =>
    rw [Expr.evaluate, Expr.evaluate]
    refine agrees_of_eq ?_
    refine (agrees_evaluate h focus primary he.2.1).bind_eq fun value value' hvalue => ?_
    refine (sameSet_toNodeSet hvalue.related _).bind_eq fun members members' hmembers => ?_
    rw [hmembers.inOrder_eq, rebind_narrow h predicates he.2.2]
  | path start steps =>
    rw [Expr.evaluate, Expr.evaluate, rebind_start h focus start he.2.1]
    refine agrees_of_eq ?_
    simp only [rebind_walk h steps he.2.2]

theorem rebind_start (h : SameSets scope.bindings bindings') (focus : Focus) (start : Start)
    (he : start.Everywhere (scope.CountsAlike bindings') fun _ => True) :
    start.evaluate scope focus = start.evaluate (scope.rebind bindings') focus := by
  cases start with
  | context => rfl
  | root => rfl
  | nodes primary =>
    rw [Start.evaluate, Start.evaluate]
    refine (agrees_evaluate h focus primary he).bind_eq fun value value' hvalue => ?_
    refine (sameSet_toNodeSet hvalue.related _).bind_eq fun members members' hmembers => ?_
    rw [hmembers.inOrder_eq]

theorem rebind_step (h : SameSets scope.bindings bindings') (step : Step)
    (he : step.Everywhere (scope.CountsAlike bindings') fun _ => True) (ids : List NodeId) :
    step.evaluate scope ids = step.evaluate (scope.rebind bindings') ids := by
  cases step with
  | mk axis test predicates =>
    rw [Step.evaluate, Step.evaluate]
    simp only [rebind_narrow h predicates he.2]
    rfl

theorem agrees_evaluateAll (h : SameSets scope.bindings bindings') (focus : Focus)
    (exprs : List Expr)
    (he : EverywhereInAll (scope.CountsAlike bindings') (fun _ => True) exprs) :
    SameOutcome (ArgumentsAgree scope.bindings bindings' exprs) (evaluateAll scope focus exprs)
      (evaluateAll (scope.rebind bindings') focus exprs) := by
  cases exprs with
  | nil => exact .ok .nil
  | cons e rest =>
    rw [evaluateAll, evaluateAll]
    refine (agrees_evaluate h focus e he.1).bind fun value value' hvalue => ?_
    refine (agrees_evaluateAll h focus rest he.2).bind fun values values' hvalues => ?_
    exact .ok (.cons hvalue hvalues)

theorem rebind_narrow (h : SameSets scope.bindings bindings') (predicates : List Expr)
    (he : EverywhereInAll (scope.CountsAlike bindings') (fun _ => True) predicates)
    (ids : List NodeId) :
    narrow scope predicates ids = narrow (scope.rebind bindings') predicates ids := by
  cases predicates with
  | nil => rfl
  | cons predicate rest =>
    have htest : (fun id position => do
          return (← predicate.evaluate scope ⟨id, position, ids.length⟩).selects position) =
        fun id position => do
          return (← predicate.evaluate (scope.rebind bindings')
            ⟨id, position, ids.length⟩).selects position := by
      funext id position
      exact (agrees_evaluate h _ predicate he.1).bind_eq fun value value' hvalue =>
        congrArg Except.ok (sameSet_selects hvalue.related position)
    rw [narrow, narrow, htest]
    simp only [rebind_narrow h rest he.2]

theorem rebind_walk (h : SameSets scope.bindings bindings') (steps : List Step)
    (he : EverywhereInSteps (scope.CountsAlike bindings') (fun _ => True) steps)
    (ids : List NodeId) :
    walk scope steps ids = walk (scope.rebind bindings') steps ids := by
  cases steps with
  | nil => rfl
  | cons step rest =>
    rw [walk, walk, rebind_step h step he.1]
    simp only [rebind_walk h rest he.2]

end

/-- Whether an expression calls a function that goes through a list on a variable itself. -/
def Expr.CountsVariable (library : FunctionLibrary) : Expr → Prop
  | .call name [.reference _] => library.find? name = some (.core .count) ∨
      library.find? name = some (.core .sum)
  | _ => False

/-- No other form demands anything of the lists. -/
theorem Expr.CountsAlike.of_not_countsVariable {library : FunctionLibrary}
    {bindings bindings' : String → Option Value} (h : ¬ e.CountsVariable library) :
    e.CountsAlike library d bindings bindings' := by
  unfold Expr.CountsAlike
  split
  · intro function ids ids' hfind _ _
    refine ⟨?_, ?_⟩
    · rintro rfl
      exact absurd (.inl hfind) h
    · rintro rfl
      exact absurd (.inr hfind) h
  · trivial

/-- `count` and `sum` of a variable go through the list that is its value. -/
theorem evaluate_call_reference (scope : Scope) (focus : Focus) (name : String) {x : String}
    (hx : scope.bindings x = some (.nodes ids)) :
    (scope.functions.find? name = some (.core .count) →
      (Expr.call name [.reference x]).evaluate scope focus =
        .ok (.number (.ofNat ids.length))) ∧
    (scope.functions.find? name = some (.core .sum) →
      (Expr.call name [.reference x]).evaluate scope focus =
        .ok (.number (CoreFunction.sumOf scope.document ids))) := by
  have hargs : evaluateAll scope focus [.reference x] = .ok [.nodes ids] := by
    simp only [evaluateAll, Expr.evaluate, hx]
    rfl
  refine ⟨fun hfind => ?_, fun hfind => ?_⟩
  · rw [Expr.evaluate, hargs]
    change scope.call focus name [.nodes ids] = _
    rw [Scope.call, hfind]
    rfl
  · rw [Expr.evaluate, hargs]
    change scope.call focus name [.nodes ids] = _
    rw [Scope.call, hfind]
    rfl

/-! ## Results -/

theorem sameSet_payload (h : v.Related SameMembers v') (type : ResultType) :
    v.payload d type = v'.payload d type := by
  unfold Value.payload
  rw [sameSet_toNumber h, sameSet_toText h, sameSet_truth h, sameSet_members h]

theorem sameSet_materialize (h : v.Related SameMembers v') (requested : ResultType) :
    v.materialize d requested = v'.materialize d requested := by
  simp only [materialize_eq, sameSet_kind h, sameSet_payload h]

theorem materialize_eq_of_agrees {m m' : Except EvalError Value} (requested : ResultType) :
    SameOutcome (e.Agrees scope.bindings bindings') m m' →
      (match m with
        | .ok value => value.materialize d requested
        | .error error => .error (ResultError.evaluation error)) =
      match m' with
        | .ok value => value.materialize d requested
        | .error error => .error (ResultError.evaluation error) := by
  intro h
  cases h with
  | ok hvalue => exact sameSet_materialize hvalue.related requested
  | error error => rfl

/-- Bindings of the same sets give the same result or error, in every requested type, unless `count`
or `sum` is called on a variable itself; there it is enough that the two lists come to the same. The
two functions return the number of items in the list, and their sum, whatever the set is. -/
theorem variables_are_sets (evaluator : Evaluator) (query : Query) (d : Document)
    (context : NodeId) (resolver : Option Resolver) {bindings bindings' : String → Option Value}
    (h : SameSets bindings bindings') :
    (query.expr.Everywhere (Expr.CountsAlike evaluator.functions d bindings bindings')
        (fun _ => True) →
      ∀ requested, evaluator.evaluate query d context resolver requested bindings =
        evaluator.evaluate query d context resolver requested bindings') ∧
    (query.expr.Everywhere (fun e => ¬ e.CountsVariable evaluator.functions) (fun _ => True) →
      ∀ requested, evaluator.evaluate query d context resolver requested bindings =
        evaluator.evaluate query d context resolver requested bindings') ∧
    ∀ name x ids, query.expr = .call name [.reference x] → bindings x = some (.nodes ids) →
      (evaluator.functions.find? name = some (.core .count) →
        evaluator.evaluate query d context resolver .number bindings =
          .ok ⟨.number, .number (.ofNat ids.length)⟩) ∧
      (evaluator.functions.find? name = some (.core .sum) →
        evaluator.evaluate query d context resolver .number bindings =
          .ok ⟨.number, .number (CoreFunction.sumOf d ids)⟩) := by
  let scope := Scope.startingAt d context evaluator.functions bindings
    (resolver <|> evaluator.resolver)
  have alike : query.expr.Everywhere (Expr.CountsAlike evaluator.functions d bindings bindings')
        (fun _ => True) →
      ∀ requested, evaluator.evaluate query d context resolver requested bindings =
        evaluator.evaluate query d context resolver requested bindings' := by
    intro hcounts requested
    have hscope : SameSets scope.bindings bindings' := h
    exact materialize_eq_of_agrees requested
      (agrees_evaluate hscope (.on context) query.expr hcounts)
  refine ⟨alike, fun hcounts => ?_, ?_⟩
  · exact alike (hcounts.imp (fun e he => .of_not_countsVariable he) fun _ => id)
  · intro name x ids hexpr hx
    have hcall := evaluate_call_reference scope (.on context) name hx
    rw [Evaluator.evaluate, hexpr]
    refine ⟨fun hfind => ?_, fun hfind => ?_⟩
    · rw [hcall.1 hfind]
      rfl
    · rw [hcall.2 hfind]
      rfl

/-- With the root once or twice in the value of a variable, a union of the variable has one member,
but `count` of the variable tells the two lists apart. -/
theorem variables_are_sets_of_repeated :
    let once : String → Option Value := fun _ => some (.nodes [Document.root])
    let twice : String → Option Value := fun _ => some (.nodes [Document.root, Document.root])
    let union : Query := ⟨"count($v | $v)",
      .call "count" [.binary .union (.reference "v") (.reference "v")]⟩
    let itself : Query := ⟨"count($v)", .call "count" [.reference "v"]⟩
    let run := fun query bindings =>
      Evaluator.core.evaluate query .empty Document.root none .number bindings
    (SameSets once twice ∧
      union.expr.Everywhere (fun e => ¬ e.CountsVariable FunctionLibrary.core) (fun _ => True) ∧
      run union once = run union twice) ∧
    (run itself once = .ok ⟨.number, .number (.ofNat 1)⟩ ∧
      run itself twice = .ok ⟨.number, .number (.ofNat 2)⟩ ∧
      run itself once ≠ run itself twice) := by
  intro once twice union itself run
  have hsets : SameSets once twice := fun _ => .some (.nodes fun x => by simp)
  have hfree : union.expr.Everywhere (fun e => ¬ e.CountsVariable FunctionLibrary.core)
      fun _ => True := ⟨id, ⟨id, id, id⟩, trivial⟩
  have hcount : FunctionLibrary.core.find? "count" = some (.core .count) := rfl
  have honce : run itself once = .ok ⟨.number, .number (.ofNat 1)⟩ :=
    ((variables_are_sets .core itself .empty Document.root none hsets).2.2
      "count" "v" _ rfl rfl).1 hcount
  have htwice : run itself twice = .ok ⟨.number, .number (.ofNat 2)⟩ :=
    ((variables_are_sets .core itself .empty Document.root none
      fun name => .some (sameSet_refl (.nodes [Document.root, Document.root]))).2.2
      "count" "v" _ rfl rfl).1 hcount
  refine ⟨⟨hsets, hfree, ?_⟩, honce, htwice, ?_⟩
  · exact (variables_are_sets .core union .empty Document.root none hsets).2.1 hfree .number
  · rw [honce, htwice]
    decide +kernel

end XPath
