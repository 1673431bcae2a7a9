import XPath.Expr.Position
import XPath.Proofs.Eval.Kind
/-! Positions. An expression that calls neither `position` nor `last` outside of its predicates has
the same outcome at a node wherever the node stands among others: positions travel through operands,
arguments and the nodes at which paths start, and every predicate replaces them. -/
namespace XPath
set_option autoImplicit false

variable {scope : Scope} {focus focus' : Focus} {args : List Value} {e : Expr}

/-! ## Functions -/

theorem apply_eq_of_node (hnode : focus.node = focus'.node) {function : CoreFunction}
    (hfunction : function.isPositional = false) :
    function.apply scope focus args = function.apply scope focus' args := by
  unfold CoreFunction.apply
  rw [hnode]
  split
  · cases hfunction
  · cases hfunction
  all_goals rfl

theorem call_eq_of_node (h : scope.functions.Reachable) (hnode : focus.node = focus'.node)
    {name : String} (hname : (CoreFunction.ofName? name).any CoreFunction.isPositional = false) :
    scope.call focus name args = scope.call focus' name args := by
  unfold Scope.call
  split
  · rfl
  · next function hfind =>
    -- The function is found under its own name, which is not one of the two.
    rw [h.ofName?_of_find? hfind] at hname
    exact apply_eq_of_node hnode hname
  · rfl

/-! ## Expressions -/

mutual

theorem evaluate_eq_of_node (h : scope.functions.Reachable) (hnode : focus.node = focus'.node)
    (e : Expr) (he : e.readsPosition = false) : e.evaluate scope focus = e.evaluate scope focus' := by
  cases e with
  | literal text => rfl
  | number value => rfl
  | reference name => rfl
  | call function args =>
    obtain ⟨hfunction, hargs⟩ := Bool.or_eq_false_iff.mp he
    rw [Expr.evaluate, Expr.evaluate, evaluateAll_eq_of_node h hnode args hargs]
    exact bind_congr fun values => call_eq_of_node h hnode hfunction
  | negate operand =>
    rw [Expr.evaluate, Expr.evaluate, evaluate_eq_of_node h hnode operand he]
  | binary op left right =>
    obtain ⟨hleft, hright⟩ := Bool.or_eq_false_iff.mp he
    rw [Expr.evaluate, Expr.evaluate, evaluate_eq_of_node h hnode left hleft,
      evaluate_eq_of_node h hnode right hright]
  | filter primary predicates =>
    rw [Expr.evaluate, Expr.evaluate, evaluate_eq_of_node h hnode primary he]
  | path start steps =>
    rw [Expr.evaluate, Expr.evaluate, start_eq_of_node h hnode start he]

theorem start_eq_of_node (h : scope.functions.Reachable) (hnode : focus.node = focus'.node)
    (start : Start) (he : start.readsPosition = false) :
    start.evaluate scope focus = start.evaluate scope focus' := by
  cases start with
  | context => rw [Start.evaluate, Start.evaluate, hnode]
  | root => rfl
  | nodes primary =>
    rw [Start.evaluate, Start.evaluate, evaluate_eq_of_node h hnode primary he]

theorem evaluateAll_eq_of_node (h : scope.functions.Reachable) (hnode : focus.node = focus'.node)
    (exprs : List Expr) (he : anyReadsPosition exprs = false) :
    evaluateAll scope focus exprs = evaluateAll scope focus' exprs := by
  cases exprs with
  | nil => rfl
  | cons e rest =>
    obtain ⟨he, hrest⟩ := Bool.or_eq_false_iff.mp he
    rw [evaluateAll, evaluateAll, evaluate_eq_of_node h hnode e he,
      evaluateAll_eq_of_node h hnode rest hrest]

end

/-- An expression that calls `position` and `last` inside of predicates only has the same outcome at
every position among any number of nodes. -/
theorem evaluate_independent_of_position (h : scope.functions.Reachable)
    (he : e.readsPosition = false) (node : NodeId) (position size position' size' : Nat) :
    e.evaluate scope ⟨node, position, size⟩ = e.evaluate scope ⟨node, position', size'⟩ := by
  have hnode : (⟨node, position, size⟩ : Focus).node = (⟨node, position', size'⟩ : Focus).node := rfl
  exact evaluate_eq_of_node h hnode e he

/-- Counting the children in the last place, with a predicate on the steps and one on a filter. -/
theorem evaluate_independent_of_position_of_last :
    let d := Edit.afterAll .empty [.createElement "a" none, .createText "t", .createText "u",
      .appendChild Document.root ⟨1⟩, .appendChild ⟨1⟩ ⟨2⟩, .appendChild ⟨1⟩ ⟨3⟩]
    let scope := Scope.startingAt d ⟨1⟩ .core (fun _ => none) none
    let last : Expr := .path .context [.mk .child .text [.call "last" []]]
    let e : Expr := .call "string" [.filter last [.call "position" []]]
    scope.functions.Reachable ∧ e.readsPosition = false ∧
      e.evaluate scope ⟨⟨1⟩, 3, 7⟩ = .ok (.string "u") := by
  intro d scope last e
  have hfirst : e.evaluate scope ⟨⟨1⟩, 1, 1⟩ = .ok (.string "u") := by decide +kernel
  refine ⟨.core, by decide +kernel, ?_⟩
  rw [evaluate_independent_of_position .core (by decide +kernel) _ 3 7 1 1]
  exact hfirst

end XPath
