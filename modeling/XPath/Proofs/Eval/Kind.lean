import XPath.Proofs.Eval.WellTyped
import XPath.Proofs.Result.Materialize
/-! The kind that the form of an expression tells, against the values that it has. The form tells
the kind of every value unless the expression is itself a call that an extension answers in place of
a core function; what happens inside of the expression does not matter. -/
namespace XPath
set_option autoImplicit false

variable {scope : Scope} {focus : Focus} {args : List Value} {value : Value} {e : Expr} {k : Kind}

/-! ## Libraries -/

namespace FunctionLibrary

variable {library : FunctionLibrary} {name other : String} {run : Extension}

theorem find?_register : (library.register name run).find? other =
    if other = name then some (.extension run) else library.find? other := by
  unfold find? register
  by_cases h : other = name
  · simp [h]
  · have hkept : (fun entry : String × Callee =>
        decide ((entry.1 != name) = true ∧ (entry.1 == other) = true)) =
        fun entry => entry.1 == other := by
      funext entry
      by_cases hentry : entry.1 = other <;> simp [hentry, h]
    rw [if_neg h, List.find?_cons_of_neg (by simpa using Ne.symm h), List.find?_filter, hkept]

/-- A core function is found under its own name only. -/
theorem Reachable.ofName?_of_find? (h : library.Reachable) {function : CoreFunction}
    (hfind : library.find? name = some (.core function)) :
    CoreFunction.ofName? name = some function := by
  induction h with
  | empty => cases hfind
  | core =>
    rw [find?_core] at hfind
    obtain ⟨found, hfound, hcore⟩ := Option.map_eq_some_iff.mp hfind
    rw [hfound, Callee.core.inj hcore]
  | registered registered run _ ih =>
    rw [find?_register] at hfind
    split at hfind
    · cases Option.some.inj hfind
    · exact ih hfind

/-- Evaluators that are built have such a library. -/
theorem reachable_build (extensions : List (String × Extension))
    (namespaces : List (String × String)) (resolver : Option Resolver) :
    (Evaluator.build extensions namespaces resolver).functions.Reachable := by
  have key : ∀ library : FunctionLibrary, library.Reachable →
      (extensions.foldl (fun library entry => library.register entry.1 entry.2)
        library).Reachable := by
    induction extensions with
    | nil => exact fun _ h => h
    | cons entry rest ih => exact fun _ h => ih _ (h.registered entry.1 entry.2)
  exact key .core .core

end FunctionLibrary

/-! ## Functions -/

/-- Whatever a core function returns is of its kind. -/
theorem kind_of_apply (function : CoreFunction)
    (he : function.apply scope focus args = .ok value) : value.kind = function.kind := by
  unfold CoreFunction.apply at he
  split at he
  -- A function returns a value at once, returns one if its argument is a node-set, or fails.
  all_goals first
    | (obtain rfl := Except.ok.inj he; rfl)
    | (obtain ⟨_, -, he⟩ := bind_eq_ok he; obtain rfl := Except.ok.inj he; rfl)
    | cases he

/-- What a call returns that an extension answers. -/
theorem call_extension {name : String} {run : Extension}
    (hfind : scope.functions.find? name = some (.extension run))
    (he : scope.call focus name args = .ok value) :
    ∃ scalar, run (args.map (Value.toScalar scope.document)) = .ok scalar ∧
      value = .ofScalar scalar := by
  rw [Scope.call, hfind] at he
  obtain ⟨scalar, hscalar, hvalue⟩ := bind_eq_ok (m := run _) he
  exact ⟨scalar, hscalar, (Except.ok.inj hvalue).symm⟩

/-! ## Expressions -/

/-- Whether an expression is a call that an extension answers. -/
def Expr.IsExtended (library : FunctionLibrary) : Expr → Prop
  | .call name _ => ∃ run, library.find? name = some (.extension run)
  | _ => False

theorem kind_of_call {name : String} (h : scope.functions.Reachable)
    (hk : (CoreFunction.ofName? name).map CoreFunction.kind = some k)
    (hextended : ¬ ∃ run, scope.functions.find? name = some (.extension run))
    (he : scope.call focus name args = .ok value) : value.kind = k := by
  rw [Scope.call] at he
  split at he
  · cases he
  · next function hfind =>
    rw [h.ofName?_of_find? hfind] at hk
    rw [kind_of_apply function he]
    exact Option.some.inj hk
  · next run hfind => exact absurd ⟨run, hfind⟩ hextended

theorem kind_of_operator {d : Document} {op : BinaryOp} {v w : Value}
    (he : op.apply d v w = .ok value) : value.kind = op.kind := by
  cases op with
  | or => obtain rfl := Except.ok.inj he; rfl
  | and => obtain rfl := Except.ok.inj he; rfl
  | compare comparison => obtain rfl := Except.ok.inj he; rfl
  | arith arithmetic => obtain rfl := Except.ok.inj he; rfl
  | union =>
    obtain ⟨_, -, he⟩ := bind_eq_ok he
    obtain ⟨_, -, he⟩ := bind_eq_ok he
    obtain rfl := Except.ok.inj he
    rfl

theorem kind_of_evaluate (h : scope.functions.Reachable) (hk : e.kind? = some k)
    (hextended : ¬ e.IsExtended scope.functions) (he : e.evaluate scope focus = .ok value) :
    value.kind = k := by
  cases e with
  | literal text =>
    rw [Expr.evaluate] at he
    obtain rfl := Except.ok.inj he
    exact Option.some.inj hk
  | number n =>
    rw [Expr.evaluate] at he
    obtain rfl := Except.ok.inj he
    exact Option.some.inj hk
  | reference name => cases hk
  | call name args =>
    rw [Expr.evaluate] at he
    obtain ⟨values, -, he⟩ := bind_eq_ok he
    exact kind_of_call h hk hextended he
  | negate operand =>
    rw [Expr.evaluate] at he
    obtain ⟨_, -, he⟩ := bind_eq_ok he
    obtain rfl := Except.ok.inj he
    exact Option.some.inj hk
  | binary op left right =>
    rw [Expr.evaluate] at he
    obtain ⟨first, -, he⟩ := bind_eq_ok he
    rw [← Option.some.inj hk]
    split at he
    · next decided hdecided =>
      obtain rfl := Except.ok.inj he
      exact (kind_eq_boolean hdecided).symm
    · obtain ⟨second, -, he⟩ := bind_eq_ok he
      exact kind_of_operator he
  | filter primary predicates =>
    rw [Expr.evaluate] at he
    obtain ⟨_, -, he⟩ := bind_eq_ok he
    obtain ⟨_, -, he⟩ := bind_eq_ok he
    obtain ⟨_, -, he⟩ := bind_eq_ok he
    obtain rfl := Except.ok.inj he
    exact Option.some.inj hk
  | path start steps =>
    rw [Expr.evaluate] at he
    obtain ⟨_, -, he⟩ := bind_eq_ok he
    obtain ⟨_, -, he⟩ := bind_eq_ok he
    obtain rfl := Except.ok.inj he
    exact Option.some.inj hk

/-! ## Results -/

/-- Whatever an expression evaluates to can be had as a result of the type that suits it. -/
theorem evaluate_any (query : Query) {evaluator : Evaluator} {d : Document} {context : NodeId}
    {resolver : Option Resolver} {bindings : String → Option Value}
    (he : query.expr.evaluate (Scope.startingAt d context evaluator.functions bindings
      (resolver <|> evaluator.resolver)) (.on context) = .ok value) :
    evaluator.evaluate query d context resolver .any bindings =
      .ok ⟨.natural value.kind, value.payload d (.natural value.kind)⟩ := by
  unfold Evaluator.evaluate
  simp only [he, materialize_eq]
  cases value <;> rfl

/-- The form of an expression tells the kind of its values, and the type of its results when none is
requested, unless it is a call that an extension answers; then its value is what the extension
returns for the arguments. That is possible only where the extension replaces a core function. -/
theorem kind?_sound {library : FunctionLibrary} (h : library.Reachable) (hk : e.kind? = some k) :
    (¬ e.IsExtended library →
      (∀ (scope : Scope) (focus : Focus) (value : Value), scope.functions = library →
        e.evaluate scope focus = .ok value → value.kind = k) ∧
      ∀ (evaluator : Evaluator) (source : String) (d : Document) (context : NodeId)
        (resolver : Option Resolver) (bindings : String → Option Value) (value : Value),
        evaluator.functions = library →
        e.evaluate (Scope.startingAt d context library bindings (resolver <|> evaluator.resolver))
          (.on context) = .ok value →
        ∃ r, evaluator.evaluate ⟨source, e⟩ d context resolver .any bindings = .ok r ∧
          r.type = .natural k) ∧
    (∀ (name : String) (args : List Expr) (run : Extension), e = .call name args →
      library.find? name = some (.extension run) →
      ∀ (scope : Scope) (focus : Focus) (value : Value), scope.functions = library →
        e.evaluate scope focus = .ok value →
        ∃ values scalar, evaluateAll scope focus args = .ok values ∧
          run (values.map (Value.toScalar scope.document)) = .ok scalar ∧
          value = .ofScalar scalar) ∧
    ((∀ (function : CoreFunction) (run : Extension),
      library.find? function.name ≠ some (.extension run)) → ¬ e.IsExtended library) := by
  refine ⟨fun hextended => ⟨?_, ?_⟩, ?_, ?_⟩
  · rintro scope focus value rfl he
    exact kind_of_evaluate h hk hextended he
  · rintro evaluator source d context resolver bindings value rfl he
    have hvalue : value.kind = k := kind_of_evaluate h hk hextended he
    exact ⟨_, evaluate_any ⟨source, e⟩ he, by rw [hvalue]⟩
  · rintro name args run rfl hfind scope focus value rfl he
    rw [Expr.evaluate] at he
    obtain ⟨values, hvalues, he⟩ := bind_eq_ok he
    obtain ⟨scalar, hscalar, hvalue⟩ := call_extension hfind he
    exact ⟨values, scalar, hvalues, hscalar, hvalue⟩
  · intro hkept hextended
    cases e with
    | call name args =>
      obtain ⟨run, hfind⟩ := hextended
      obtain ⟨function, hname, -⟩ := Option.map_eq_some_iff.mp hk
      have hname' : function.name = name := by simpa using List.find?_some hname
      exact hkept function run (hname' ▸ hfind)
    | _ => exact hextended

/-- With a `count` of its own that returns a text, an evaluator still adds numbers, but a call of
`count` has a kind that its form does not tell. -/
theorem kind?_sound_of_replaced :
    let library := FunctionLibrary.core.register "count" fun _ => .ok (.string "many")
    let scope := Scope.startingAt .empty Document.root library (fun _ => none) none
    let count : Expr := .call "count" [.path .root []]
    let e : Expr := .binary (.arith .add) count (.number (.ofNat 1))
    (library.Reachable ∧ e.kind? = some .number ∧ ¬ e.IsExtended library ∧
      ∃ value, e.evaluate scope (.on Document.root) = .ok value ∧ value.kind = .number) ∧
    count.kind? = some .number ∧
      count.evaluate scope (.on Document.root) = .ok (.string "many") := by
  intro library scope count e
  have h : library.Reachable := .registered _ _ .core
  have hcount : count.evaluate scope (.on Document.root) = .ok (.string "many") := by rfl
  have he : e.evaluate scope (.on Document.root) =
      .ok (.number ((Number.parse "many").add (.ofNat 1))) := by
    simp only [e, Expr.evaluate, hcount, bind, Except.bind]
    rfl
  refine ⟨⟨h, rfl, fun hextended => hextended, _, he, ?_⟩, by decide +kernel, hcount⟩
  exact ((kind?_sound h (e := e) rfl).1 fun hextended => hextended).1 scope _ _ rfl he

end XPath
