import XPath.Eval.Core
import XPath.Eval.NodeTest
/-! Evaluation of expressions. A step runs once for every node that reached it, so that positions in
its predicates count along the axis from that node; what it selects from all of them together is in
document order and free of duplicates. -/
namespace XPath
set_option autoImplicit false

/-! ## Lists of nodes -/

/-- Keeps the nodes that pass a test, which also sees their positions, counted from `position`. -/
def keepWhere (test : NodeId → Nat → Except EvalError Bool) :
    Nat → List NodeId → Except EvalError (List NodeId)
  | _, [] => return []
  | position, id :: rest => do
    let keep ← test id position
    let kept ← keepWhere test (position + 1) rest
    return if keep then id :: kept else kept

/-- Joins what is selected from each node. -/
def gather (select : NodeId → Except EvalError (List NodeId)) :
    List NodeId → Except EvalError (List NodeId)
  | [] => return []
  | id :: rest => do
    let first ← select id
    return first ++ (← gather select rest)

namespace Scope

/-- What a step selects from the nodes that reached it, given what its predicates keep. The
selection from a single node along a forward axis is in document order as it is. -/
def select (scope : Scope) (axis : Axis) (test : NodeTest)
    (narrow : List NodeId → Except EvalError (List NodeId)) (ids : List NodeId) :
    Except EvalError (List NodeId) := do
  if axis = .namespaceNode then throw (.unsupportedAxis axis)
  let qualification ← test.qualification scope.resolver
  let found ← gather
    (fun id => narrow ((axis.nodes scope.document id).filter
      (test.passes scope.document axis qualification))) ids
  return if ids.length = 1 && !axis.isReverse then found else scope.document.inOrder found

end Scope

/-! ## Expressions -/

mutual

/-- The value of an expression. The right operand of `or` and `and` is not evaluated where the left
one decides. -/
def Expr.evaluate (scope : Scope) (focus : Focus) : Expr → Except EvalError Value
  | .literal text => .ok (.string text)
  | .number value => .ok (.number value)
  | .reference name =>
    match scope.bindings name with
    | some value => .ok value
    | none => .error (.unknownVariable name)
  | .call function args => do scope.call focus function (← evaluateAll scope focus args)
  | .negate operand => do
    return .number ((← operand.evaluate scope focus).toNumber scope.document).neg
  | .binary op left right => do
    let first ← left.evaluate scope focus
    match op.shortcut? first with
    | some decided => return .boolean decided
    | none => op.apply scope.document first (← right.evaluate scope focus)
  | .filter primary predicates => do
    let ids ← (← primary.evaluate scope focus).toNodeSet "A predicate"
    return .nodes (← narrow scope predicates (scope.document.inOrder ids))
  | .path start steps => do
    return .nodes (← walk scope steps (← start.evaluate scope focus))

/-- The nodes at which a path starts. -/
def Start.evaluate (scope : Scope) (focus : Focus) : Start → Except EvalError (List NodeId)
  | .context => .ok [focus.node]
  | .root => .ok [scope.root]
  | .nodes primary => do
    return scope.document.inOrder (← (← primary.evaluate scope focus).toNodeSet "A path step")

/-- The nodes that a step selects from those that reached it. -/
def Step.evaluate (scope : Scope) : Step → List NodeId → Except EvalError (List NodeId)
  | .mk axis test predicates, ids =>
    scope.select axis test (fun candidates => narrow scope predicates candidates) ids

def evaluateAll (scope : Scope) (focus : Focus) : List Expr → Except EvalError (List Value)
  | [] => return []
  | expr :: rest => do
    let value ← expr.evaluate scope focus
    return value :: (← evaluateAll scope focus rest)

/-- Applies predicates one after the other. Each one counts positions among what the ones before
it have kept. -/
def narrow (scope : Scope) : List Expr → List NodeId → Except EvalError (List NodeId)
  | [], ids => return ids
  | predicate :: rest, ids => do
    let kept ← keepWhere
      (fun id position => do
        return (← predicate.evaluate scope ⟨id, position, ids.length⟩).selects position) 1 ids
    narrow scope rest kept

/-- Takes the steps of a path one after the other. -/
def walk (scope : Scope) : List Step → List NodeId → Except EvalError (List NodeId)
  | [], ids => return ids
  | step :: rest, ids => do walk scope rest (← step.evaluate scope ids)

end

end XPath
