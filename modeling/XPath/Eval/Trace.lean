import XPath.Eval.Basic
/-! Evaluation with a record of the foci that it sets. An evaluation starts in a given focus, and
every predicate sets another one for each node that it is tried on. The record has these in the
order in which they are set, up to the first failure. -/
namespace XPath
set_option autoImplicit false

/-! ## Records -/

/-- An outcome, and the foci that were set on the way to it. -/
structure Traced (α : Type) where
  foci : List Focus
  outcome : Except EvalError α

namespace Traced

variable {α β : Type}

/-- An outcome for which no focus is set. -/
def ofOutcome (outcome : Except EvalError α) : Traced α := ⟨[], outcome⟩

/-- Goes on from a value, and stops at a failure. -/
def andThen (first : Traced α) (next : α → Traced β) : Traced β :=
  match first.outcome with
  | .ok a => ⟨first.foci ++ (next a).foci, (next a).outcome⟩
  | .error e => ⟨first.foci, .error e⟩

instance : Monad Traced where
  pure a := ofOutcome (.ok a)
  bind := andThen

instance : MonadLift (Except EvalError) Traced := ⟨ofOutcome⟩

/-- What happens once a focus is set. -/
def inFocus (focus : Focus) (rest : Traced α) : Traced α := ⟨focus :: rest.foci, rest.outcome⟩

end Traced

/-! ## Lists of nodes -/

/-- `keepWhere` with a record. -/
def keepTraced (test : NodeId → Nat → Traced Bool) : Nat → List NodeId → Traced (List NodeId)
  | _, [] => return []
  | position, id :: rest => do
    let keep ← test id position
    let kept ← keepTraced test (position + 1) rest
    return if keep then id :: kept else kept

/-- `gather` with a record. -/
def gatherTraced (select : NodeId → Traced (List NodeId)) : List NodeId → Traced (List NodeId)
  | [] => return []
  | id :: rest => do
    let first ← select id
    return first ++ (← gatherTraced select rest)

/-- `Scope.select` with a record. -/
def Scope.selectTraced (scope : Scope) (axis : Axis) (test : NodeTest)
    (narrow : List NodeId → Traced (List NodeId)) (ids : List NodeId) : Traced (List NodeId) :=
  if axis = .namespaceNode then .ofOutcome (.error (.unsupportedAxis axis))
  else do
    let qualification ← test.qualification scope.resolver
    let found ← gatherTraced
      (fun id => narrow ((axis.nodes scope.document id).filter
        (test.passes scope.document axis qualification))) ids
    return if ids.length = 1 && !axis.isReverse then found else scope.document.inOrder found

/-! ## Expressions -/

mutual

/-- The value of an expression, with the foci that its evaluation sets. -/
def Expr.traced (scope : Scope) (focus : Focus) : Expr → Traced Value
  | .literal text => .ofOutcome ((Expr.literal text).evaluate scope focus)
  | .number value => .ofOutcome ((Expr.number value).evaluate scope focus)
  | .reference name => .ofOutcome ((Expr.reference name).evaluate scope focus)
  | .call function args => do scope.call focus function (← tracedAll scope focus args)
  | .negate operand => do
    return .number ((← operand.traced scope focus).toNumber scope.document).neg
  | .binary op left right => do
    let first ← left.traced scope focus
    match op.shortcut? first with
    | some decided => return .boolean decided
    | none => op.apply scope.document first (← right.traced scope focus)
  | .filter primary predicates => do
    let ids ← (← primary.traced scope focus).toNodeSet "A predicate"
    return .nodes (← narrowTraced scope predicates (scope.document.inOrder ids))
  | .path start steps => do
    return .nodes (← walkTraced scope steps (← start.traced scope focus))

def Start.traced (scope : Scope) (focus : Focus) : Start → Traced (List NodeId)
  | .context => .ofOutcome (Start.context.evaluate scope focus)
  | .root => .ofOutcome (Start.root.evaluate scope focus)
  | .nodes primary => do
    return scope.document.inOrder (← (← primary.traced scope focus).toNodeSet "A path step")

def Step.traced (scope : Scope) : Step → List NodeId → Traced (List NodeId)
  | .mk axis test predicates, ids =>
    scope.selectTraced axis test (fun candidates => narrowTraced scope predicates candidates) ids

def tracedAll (scope : Scope) (focus : Focus) : List Expr → Traced (List Value)
  | [] => return []
  | expr :: rest => do
    let value ← expr.traced scope focus
    return value :: (← tracedAll scope focus rest)

/-- Every predicate is evaluated in a focus of its own at each node. -/
def narrowTraced (scope : Scope) : List Expr → List NodeId → Traced (List NodeId)
  | [], ids => return ids
  | predicate :: rest, ids => do
    let kept ← keepTraced
      (fun id position => .inFocus ⟨id, position, ids.length⟩ do
        return (← predicate.traced scope ⟨id, position, ids.length⟩).selects position) 1 ids
    narrowTraced scope rest kept

def walkTraced (scope : Scope) : List Step → List NodeId → Traced (List NodeId)
  | [], ids => return ids
  | step :: rest, ids => do walkTraced scope rest (← step.traced scope ids)

end

end XPath
