import XPath.Document.History
import XPath.Expr.WellTyped
import XPath.Proofs.Eval.Outcome
/-! Well-typed expressions never fail. With the core functions they have a value at every node, and
it is of the kind that the form of the expression tells. -/
namespace XPath
set_option autoImplicit false

variable {scope : Scope} {focus : Focus} {ids : List NodeId} {value : Value}

/-! ## Lists of nodes -/

theorem succeeds_keepWhere {test : NodeId → Nat → Except EvalError Bool} {position : Nat}
    (htest : ∀ id position, Succeeds (fun _ => True) (test id position)) :
    Succeeds (fun _ => True) (keepWhere test position ids) := by
  induction ids generalizing position with
  | nil => exact .ok trivial
  | cons id rest ih =>
    rw [keepWhere]
    exact (htest id position).bind fun keep _ => ih.bind fun kept _ => .ok trivial

theorem succeeds_gather {select : NodeId → Except EvalError (List NodeId)}
    (hselect : ∀ id, Succeeds (fun _ => True) (select id)) :
    Succeeds (fun _ => True) (gather select ids) := by
  induction ids with
  | nil => exact .ok trivial
  | cons id rest ih =>
    rw [gather]
    exact (hselect id).bind fun first _ => ih.bind fun others _ => .ok trivial

theorem succeeds_select {axis : Axis} {test : NodeTest} {predicates : List Expr}
    {narrow : List NodeId → Except EvalError (List NodeId)}
    (hstep : (Step.mk axis test predicates).Fits scope.resolver)
    (hnarrow : ∀ ids, Succeeds (fun _ => True) (narrow ids)) :
    Succeeds (fun _ => True) (scope.select axis test narrow ids) := by
  obtain ⟨haxis, hresolver⟩ := hstep
  obtain ⟨qualification, hqualification⟩ := exists_qualification hresolver
  obtain ⟨found, hfound, -⟩ := succeeds_gather fun id => hnarrow _
  exact ⟨_, select_of_gather haxis hqualification hfound, trivial⟩

/-! ## Core functions -/

theorem exists_nodes (hvalue : value.kind = .nodeSet) : ∃ ids, value = .nodes ids := by
  cases value with
  | nodes ids => exact ⟨ids, rfl⟩
  | string text => cases hvalue
  | number value => cases hvalue
  | boolean value => cases hvalue

theorem find?_core (name : String) :
    FunctionLibrary.core.find? name = (CoreFunction.ofName? name).map .core := by
  unfold FunctionLibrary.find? FunctionLibrary.core CoreFunction.ofName?
  rw [List.find?_map, Option.map_map]
  rfl

section Apply

variable (function : CoreFunction) {args : List Value} {v w u : Value}

/-! A function has a value on every number of arguments that it allows. -/

theorem succeeds_apply_nil (harity : function.arity.allows 0) :
    Succeeds (fun value => value.kind = function.kind) (function.apply scope focus []) := by
  cases function with
  | last => exact .ok rfl
  | position => exact .ok rfl
  | localName => exact .ok rfl
  | namespaceUri => exact .ok rfl
  | qualifiedName => exact .ok rfl
  | string => exact .ok rfl
  | stringLength => exact .ok rfl
  | normalizeSpace => exact .ok rfl
  | truth => exact .ok rfl
  | falsehood => exact .ok rfl
  | number => exact .ok rfl
  | _ => cases harity

theorem succeeds_apply_one (harity : function.arity.allows 1)
    (hnodes : function.takesNodeSet → v.kind = .nodeSet) :
    Succeeds (fun value => value.kind = function.kind) (function.apply scope focus [v]) := by
  cases function with
  | count => obtain ⟨ids, rfl⟩ := exists_nodes (hnodes rfl); exact .ok rfl
  | sum => obtain ⟨ids, rfl⟩ := exists_nodes (hnodes rfl); exact .ok rfl
  | localName => obtain ⟨ids, rfl⟩ := exists_nodes (hnodes rfl); exact .ok rfl
  | namespaceUri => obtain ⟨ids, rfl⟩ := exists_nodes (hnodes rfl); exact .ok rfl
  | qualifiedName => obtain ⟨ids, rfl⟩ := exists_nodes (hnodes rfl); exact .ok rfl
  | id => cases v <;> exact .ok rfl
  | string => exact .ok rfl
  | stringLength => exact .ok rfl
  | normalizeSpace => exact .ok rfl
  | boolean => exact .ok rfl
  | negation => exact .ok rfl
  | lang => exact .ok rfl
  | number => exact .ok rfl
  | floor => exact .ok rfl
  | ceiling => exact .ok rfl
  | round => exact .ok rfl
  | _ => cases harity

theorem succeeds_apply_two (harity : function.arity.allows 2) :
    Succeeds (fun value => value.kind = function.kind) (function.apply scope focus [v, w]) := by
  cases function with
  | concat => exact .ok rfl
  | startsWith => exact .ok rfl
  | contains => exact .ok rfl
  | substringBefore => exact .ok rfl
  | substringAfter => exact .ok rfl
  | substring => exact .ok rfl
  | _ => cases harity

theorem succeeds_apply_three (harity : function.arity.allows 3) :
    Succeeds (fun value => value.kind = function.kind) (function.apply scope focus [v, w, u]) := by
  cases function with
  | concat => exact .ok rfl
  | substring => exact .ok rfl
  | translate => exact .ok rfl
  | _ => cases harity

/-- More arguments than three are for `concat` only. -/
theorem eq_concat (harity : function.arity.allows (args.length + 4)) : function = .concat := by
  cases function with
  | concat => rfl
  | _ => simp [CoreFunction.arity, Arity.exactly, Arity.allows] at harity

theorem succeeds_apply (harity : function.arity.allows args.length)
    (hnodes : function.takesNodeSet → ∀ arg ∈ args, arg.kind = .nodeSet) :
    Succeeds (fun value => value.kind = function.kind) (function.apply scope focus args) := by
  rcases args with _ | ⟨v, _ | ⟨w, _ | ⟨u, _ | ⟨r, args⟩⟩⟩⟩
  · exact succeeds_apply_nil function harity
  · exact succeeds_apply_one function harity fun h => hnodes h v List.mem_cons_self
  · exact succeeds_apply_two function harity
  · exact succeeds_apply_three function harity
  · obtain rfl : function = .concat := eq_concat function harity
    exact .ok rfl

end Apply

/-! ## Expressions -/

theorem succeeds_toNodeSet (hvalue : value.kind = .nodeSet) (purpose : String) :
    Succeeds (fun _ => True) (value.toNodeSet purpose) := by
  obtain ⟨ids, rfl⟩ := exists_nodes hvalue
  exact .ok trivial

/-- What `or` and `and` decide early is the boolean that they announce. -/
theorem kind_eq_boolean {op : BinaryOp} {decided : Bool}
    (h : op.shortcut? value = some decided) : op.kind = .boolean := by
  cases op with
  | or => rfl
  | and => rfl
  | compare comparison => cases h
  | arith arithmetic => cases h
  | union => cases h

theorem succeeds_binary {d : Document} {op : BinaryOp} {left right : Expr} {v w : Value}
    (hfits : (Expr.binary op left right).Fits) (hv : left.kind? = some v.kind)
    (hw : right.kind? = some w.kind) :
    Succeeds (fun value => op.kind = value.kind) (op.apply d v w) := by
  cases op with
  | or => exact .ok rfl
  | and => exact .ok rfl
  | compare comparison => exact .ok rfl
  | arith arithmetic => exact .ok rfl
  | union =>
    have hv' : v.kind = .nodeSet := Option.some.inj (hv.symm.trans hfits.1)
    have hw' : w.kind = .nodeSet := Option.some.inj (hw.symm.trans hfits.2)
    exact (succeeds_toNodeSet hv' _).bind fun first _ =>
      (succeeds_toNodeSet hw' _).bind fun second _ => .ok rfl

theorem kind_of_forall₂ {args : List Expr} {values : List Value} {k : Kind}
    (hvalues : List.Forall₂ (fun e value => e.kind? = some value.kind) args values)
    (hargs : ∀ arg ∈ args, arg.kind? = some k) : ∀ value ∈ values, value.kind = k := by
  induction hvalues with
  | nil => exact fun value hvalue => absurd hvalue List.not_mem_nil
  | cons hkind _ ih =>
    obtain ⟨harg, hargs⟩ := List.forall_mem_cons.mp hargs
    exact List.forall_mem_cons.mpr ⟨Option.some.inj (hkind.symm.trans harg), ih hargs⟩

theorem succeeds_call (hfunctions : scope.functions = .core) {name : String} {args : List Expr}
    {values : List Value}
    (hfits : (Expr.call name args).Fits)
    (hvalues : List.Forall₂ (fun e value => e.kind? = some value.kind) args values) :
    Succeeds (fun value => (Expr.call name args).kind? = some value.kind)
      (scope.call focus name values) := by
  obtain ⟨function, hname, harity, hnodes⟩ := hfits
  rw [hvalues.length_eq] at harity
  obtain ⟨value, hvalue, hkind⟩ := @succeeds_apply scope focus function values harity
    fun htakes => kind_of_forall₂ hvalues (hnodes htakes)
  have hkind' : (Expr.call name args).kind? = some value.kind := by
    rw [Expr.kind?, hname, hkind, Option.map_some]
  refine ⟨value, ?_, hkind'⟩
  rw [Scope.call, hfunctions, find?_core, hname]
  exact hvalue

mutual

theorem succeeds_evaluate {scope : Scope} (hfunctions : scope.functions = .core) (focus : Focus)
    (e : Expr) (he : e.WellTyped scope.resolver) :
    Succeeds (fun value => e.kind? = some value.kind) (e.evaluate scope focus) := by
  cases e with
  | literal text => exact .ok rfl
  | number value => exact .ok rfl
  | reference name => exact he.elim
  | call function args =>
    rw [Expr.evaluate]
    exact (succeeds_evaluateAll hfunctions focus args he.2).bind fun values hvalues =>
      succeeds_call hfunctions he.1 hvalues
  | negate operand =>
    rw [Expr.evaluate]
    exact (succeeds_evaluate hfunctions focus operand he.2).bind fun value _ => .ok rfl
  | binary op left right =>
    rw [Expr.evaluate]
    refine (succeeds_evaluate hfunctions focus left he.2.1).bind fun first hfirst => ?_
    split
    · next decided hdecided => exact .ok (congrArg some (kind_eq_boolean hdecided))
    · refine (succeeds_evaluate hfunctions focus right he.2.2).bind fun second hsecond => ?_
      obtain ⟨value, hvalue, hkind⟩ := succeeds_binary he.1 hfirst hsecond
      exact ⟨value, hvalue, congrArg some hkind⟩
  | filter primary predicates =>
    rw [Expr.evaluate]
    refine (succeeds_evaluate hfunctions focus primary he.2.1).bind fun value hvalue => ?_
    have hnodes : value.kind = .nodeSet := Option.some.inj (hvalue.symm.trans he.1)
    exact (succeeds_toNodeSet hnodes _).bind fun members _ =>
      (succeeds_narrow hfunctions predicates he.2.2 _).bind fun found _ => .ok rfl
  | path start steps =>
    rw [Expr.evaluate]
    refine Succeeds.bind (P := fun _ => True) ?_ fun first _ =>
      (succeeds_walk hfunctions steps he.2.2 first).bind fun found _ => .ok rfl
    cases start with
    | context => exact .ok trivial
    | root => exact .ok trivial
    | nodes primary =>
      rw [Start.evaluate]
      refine (succeeds_evaluate hfunctions focus primary he.2.1).bind fun value hvalue => ?_
      have hnodes : value.kind = .nodeSet := Option.some.inj (hvalue.symm.trans he.1)
      exact (succeeds_toNodeSet hnodes _).bind fun members _ => .ok trivial

theorem succeeds_evaluateAll {scope : Scope} (hfunctions : scope.functions = .core) (focus : Focus)
    (exprs : List Expr) (he : EverywhereInAll Expr.Fits (Step.Fits scope.resolver) exprs) :
    Succeeds (fun values => List.Forall₂ (fun e value => e.kind? = some value.kind) exprs values)
      (evaluateAll scope focus exprs) := by
  cases exprs with
  | nil => exact .ok .nil
  | cons e rest =>
    rw [evaluateAll]
    exact (succeeds_evaluate hfunctions focus e he.1).bind fun value hvalue =>
      (succeeds_evaluateAll hfunctions focus rest he.2).bind fun values hvalues =>
        .ok (.cons hvalue hvalues)

theorem succeeds_narrow {scope : Scope} (hfunctions : scope.functions = .core)
    (predicates : List Expr)
    (he : EverywhereInAll Expr.Fits (Step.Fits scope.resolver) predicates) (ids : List NodeId) :
    Succeeds (fun _ => True) (narrow scope predicates ids) := by
  cases predicates with
  | nil => exact .ok trivial
  | cons predicate rest =>
    rw [narrow]
    refine (succeeds_keepWhere fun id position => ?_).bind fun kept _ =>
      succeeds_narrow hfunctions rest he.2 kept
    exact (succeeds_evaluate hfunctions _ predicate he.1).bind fun value _ => .ok trivial

theorem succeeds_walk {scope : Scope} (hfunctions : scope.functions = .core) (steps : List Step)
    (he : EverywhereInSteps Expr.Fits (Step.Fits scope.resolver) steps) (ids : List NodeId) :
    Succeeds (fun _ => True) (walk scope steps ids) := by
  cases steps with
  | nil => exact .ok trivial
  | cons step rest =>
    rw [walk]
    refine Succeeds.bind (P := fun _ => True) ?_ fun found _ =>
      succeeds_walk hfunctions rest he.2 found
    cases step with
    | mk axis test predicates =>
      rw [Step.evaluate]
      exact succeeds_select he.1.1 fun ids => succeeds_narrow hfunctions predicates he.1.2 ids

end

/-- A well-typed expression has a value, of the kind that its form tells, whatever the document, the
node and the position are. -/
theorem Expr.WellTyped.evaluates {scope : Scope} {e : Expr} (he : e.WellTyped scope.resolver)
    (hfunctions : scope.functions = .core) (focus : Focus) :
    ∃ value, e.evaluate scope focus = .ok value ∧ ∀ k, e.kind? = some k → value.kind = k := by
  obtain ⟨value, hvalue, hkind⟩ := succeeds_evaluate hfunctions focus e he
  exact ⟨value, hvalue, fun k hk => Option.some.inj (hkind.symm.trans hk)⟩

/-- A count of the last elements of a name whose prefix is resolved. -/
theorem evaluates_count_of_last :
    let d := Edit.afterAll .empty [.createElement "a" (some "u"), .appendChild Document.root ⟨1⟩]
    let scope := Scope.startingAt d ⟨1⟩ .core (fun _ => none) (some fun _ => some "u")
    let isLast : Expr := .binary (.compare .equal) (.call "position" []) (.call "last" [])
    let e : Expr := .call "count" [.path .root [.mk .child (.name ⟨some "p", "a"⟩) [isLast]]]
    e.WellTyped scope.resolver ∧ scope.functions = .core ∧
      ∃ value, e.evaluate scope (.on ⟨1⟩) = .ok value ∧ value.kind = .number := by
  intro d scope isLast e
  have hresolver : (Step.mk .child (.name ⟨some "p", "a"⟩) [isLast]).Fits scope.resolver :=
    ⟨by decide, fun resolve hresolve qualifier _ => by cases hresolve; rfl⟩
  have hlast : isLast.WellTyped scope.resolver :=
    ⟨trivial, ⟨⟨.position, by decide, rfl, by simp⟩, trivial⟩,
      ⟨.last, by decide, rfl, by simp⟩, trivial⟩
  have he : e.WellTyped scope.resolver :=
    ⟨⟨.count, by decide, rfl, by simp [Expr.kind?]⟩,
      ⟨trivial, trivial, ⟨hresolver, hlast, trivial⟩, trivial⟩, trivial⟩
  obtain ⟨value, hvalue, hkind⟩ := he.evaluates rfl (.on ⟨1⟩)
  exact ⟨he, rfl, value, hvalue, hkind .number (by decide)⟩

end XPath
