import XPath.Document.History
import XPath.Expr.Everywhere
import XPath.Proofs.Document.Links
import XPath.Proofs.Eval.Outcome
/-! Prefixes with a resolver and without. Without one a test compares the prefix that a node's name is
written with, and with one its namespace. Where a document writes the names of a namespace with just
the prefix that the resolver gives to it, both look alike to every test, and so every step takes the
same nodes to the next one, and every predicate tests the same nodes at the same positions. -/
namespace XPath
set_option autoImplicit false

open Document

variable {scope : Scope} {resolve : Resolver} {d : Document} {qualifier uri : String} {id : NodeId}

namespace Document

/-- The prefix that a node's name is written with. -/
def qualifier? (d : Document) (id : NodeId) : Option String := (d.name? id).bind QName.qualifier

/-- The nodes with this prefix are the nodes in this namespace. -/
def Writes (d : Document) (qualifier uri : String) : Prop :=
  ∀ id, id.index < d.size → (d.qualifier? id = some qualifier ↔ d.uri? id = some uri)

/-- What is no node has neither a prefix nor a namespace. -/
theorem Writes.iff (h : d.Writes qualifier uri) (id : NodeId) :
    d.qualifier? id = some qualifier ↔ d.uri? id = some uri := by
  rcases Nat.lt_or_ge id.index d.size with hlt | hge
  · exact h id hlt
  · have hnone := node?_eq_none_iff.mpr hge
    simp [qualifier?, name?, uri?, kind?, hnone]

end Document

/-- The resolver knows the prefix of the step's test, and the document uses it as the resolver does. -/
def Step.WrittenAsResolved (d : Document) (resolve : Resolver) : Step → Prop
  | .mk _ test _ => ∀ qualifier ∈ test.qualifier?,
      ∃ uri, resolve qualifier = some uri ∧ d.Writes qualifier uri

/-- The same scope, in which prefixes are compared as they are written. -/
def Scope.withoutResolver (scope : Scope) : Scope := { scope with resolver := none }

/-! ## Tests -/

theorem admits_written : (Qualification.written qualifier).admits d id =
    (d.qualifier? id == some qualifier) := by
  unfold Qualification.admits qualifier?
  cases d.name? id <;> rfl

theorem admits_uri_eq (h : d.Writes qualifier uri) :
    (Qualification.uri uri).admits d id = (Qualification.written qualifier).admits d id := by
  rw [admits_written, Qualification.admits, Bool.eq_iff_iff, beq_iff_eq, beq_iff_eq, h.iff id]

/-- Both demands are made of the same nodes. -/
def Qualification.Alike (d : Document) (q q' : Qualification) : Prop :=
  ∀ id, q.admits d id = q'.admits d id

theorem Qualification.Alike.passes {q q' : Qualification} (h : q.Alike d q') (axis : Axis)
    (test : NodeTest) : test.passes d axis q = test.passes d axis q' := by
  funext id
  cases test with
  | anyWith qualifier => rw [NodeTest.passes, NodeTest.passes, h id]
  | name expected => rw [NodeTest.passes, NodeTest.passes, h id]
  | _ => rfl

theorem sameOutcome_qualification {axis : Axis} {test : NodeTest} {predicates : List Expr}
    (h : (Step.mk axis test predicates).WrittenAsResolved d resolve) :
    SameOutcome (Qualification.Alike d) (test.qualification (some resolve))
      (test.qualification none) := by
  unfold NodeTest.qualification
  cases hq : test.qualifier? with
  | none => exact .ok fun _ => rfl
  | some qualifier =>
    obtain ⟨uri, hresolve, hwrites⟩ := h qualifier hq
    simp only [hresolve]
    exact .ok fun _ => admits_uri_eq hwrites

/-! ## Expressions -/

theorem select_withoutResolver (hresolver : scope.resolver = some resolve) {axis : Axis}
    {test : NodeTest} {predicates : List Expr}
    (h : (Step.mk axis test predicates).WrittenAsResolved scope.document resolve)
    {narrow narrow' : List NodeId → Except EvalError (List NodeId)}
    (hnarrow : ∀ candidates, narrow candidates = narrow' candidates) (ids : List NodeId) :
    scope.select axis test narrow ids = scope.withoutResolver.select axis test narrow' ids := by
  obtain rfl := funext hnarrow
  by_cases haxis : axis = .namespaceNode
  · subst haxis
    rw [select_namespaceNode, select_namespaceNode]
  rw [select_of_ne haxis, select_of_ne haxis, hresolver]
  refine (sameOutcome_qualification h).bind_eq fun q q' hqq' => ?_
  rw [hqq'.passes]
  rfl

mutual

theorem evaluate_withoutResolver (hresolver : scope.resolver = some resolve) (e : Expr)
    (focus : Focus)
    (he : e.Everywhere (fun _ => True) (Step.WrittenAsResolved scope.document resolve)) :
    e.evaluate scope focus = e.evaluate scope.withoutResolver focus := by
  cases e with
  | literal text => rfl
  | number value => rfl
  | reference name => rfl
  | call function args =>
    rw [Expr.evaluate, Expr.evaluate, evaluateAll_withoutResolver hresolver args focus he.2]
    rfl
  | negate operand =>
    rw [Expr.evaluate, Expr.evaluate, evaluate_withoutResolver hresolver operand focus he.2]
    rfl
  | binary op left right =>
    rw [Expr.evaluate, Expr.evaluate, evaluate_withoutResolver hresolver left focus he.2.1,
      evaluate_withoutResolver hresolver right focus he.2.2]
    rfl
  | filter primary predicates =>
    rw [Expr.evaluate, Expr.evaluate, evaluate_withoutResolver hresolver primary focus he.2.1]
    refine bind_congr fun value => bind_congr fun ids => ?_
    rw [narrow_withoutResolver hresolver predicates he.2.2]
    rfl
  | path start steps =>
    rw [Expr.evaluate, Expr.evaluate, start_withoutResolver hresolver start focus he.2.1]
    refine bind_congr fun ids => ?_
    rw [walk_withoutResolver hresolver steps he.2.2]

theorem start_withoutResolver (hresolver : scope.resolver = some resolve) (start : Start)
    (focus : Focus)
    (he : start.Everywhere (fun _ => True) (Step.WrittenAsResolved scope.document resolve)) :
    start.evaluate scope focus = start.evaluate scope.withoutResolver focus := by
  cases start with
  | context => rfl
  | root => rfl
  | nodes primary =>
    rw [Start.evaluate, Start.evaluate, evaluate_withoutResolver hresolver primary focus he]
    rfl

theorem evaluateAll_withoutResolver (hresolver : scope.resolver = some resolve) (exprs : List Expr)
    (focus : Focus)
    (he : EverywhereInAll (fun _ => True) (Step.WrittenAsResolved scope.document resolve) exprs) :
    evaluateAll scope focus exprs = evaluateAll scope.withoutResolver focus exprs := by
  cases exprs with
  | nil => rfl
  | cons e rest =>
    rw [evaluateAll, evaluateAll, evaluate_withoutResolver hresolver e focus he.1,
      evaluateAll_withoutResolver hresolver rest focus he.2]

theorem narrow_withoutResolver (hresolver : scope.resolver = some resolve) (predicates : List Expr)
    (he : EverywhereInAll (fun _ => True) (Step.WrittenAsResolved scope.document resolve) predicates)
    (ids : List NodeId) : narrow scope predicates ids = narrow scope.withoutResolver predicates ids := by
  cases predicates with
  | nil => rfl
  | cons predicate rest =>
    rw [narrow, narrow]
    have hpredicate := fun id position =>
      evaluate_withoutResolver hresolver predicate ⟨id, position, ids.length⟩ he.1
    simp only [hpredicate]
    exact bind_congr fun kept => narrow_withoutResolver hresolver rest he.2 kept

theorem walk_withoutResolver (hresolver : scope.resolver = some resolve) (steps : List Step)
    (he : EverywhereInSteps (fun _ => True) (Step.WrittenAsResolved scope.document resolve) steps)
    (ids : List NodeId) : walk scope steps ids = walk scope.withoutResolver steps ids := by
  cases steps with
  | nil => rfl
  | cons step rest =>
    rw [walk, walk, step_withoutResolver hresolver step he.1 ids]
    exact bind_congr fun found => walk_withoutResolver hresolver rest he.2 found

theorem step_withoutResolver (hresolver : scope.resolver = some resolve) (step : Step)
    (he : step.Everywhere (fun _ => True) (Step.WrittenAsResolved scope.document resolve))
    (ids : List NodeId) : step.evaluate scope ids = step.evaluate scope.withoutResolver ids := by
  cases step with
  | mk axis test predicates =>
    rw [Step.evaluate, Step.evaluate]
    exact select_withoutResolver hresolver he.1 (fun candidates =>
      narrow_withoutResolver hresolver predicates he.2 candidates) ids

end

/-- Where the resolver knows every prefix in the name tests of an expression, and the nodes with the
prefix are those in the namespace that it gives for it, the outcome is the same whether prefixes are
resolved or compared as they are written. -/
theorem resolved_eq_written (hresolver : scope.resolver = some resolve) {e : Expr}
    (he : e.Everywhere (fun _ => True) (Step.WrittenAsResolved scope.document resolve))
    (focus : Focus) : e.evaluate scope focus = e.evaluate { scope with resolver := none } focus :=
  evaluate_withoutResolver hresolver e focus he

/-- The elements with the prefix above an element with an attribute that has it: a step in a predicate
and one behind it. -/
theorem resolved_eq_written_of_nested :
    let d := Edit.afterAll .empty [.createElement "p:a" (some "u"), .createElement "b" none,
      .appendChild Document.root ⟨1⟩, .appendChild ⟨1⟩ ⟨2⟩, .setAttribute ⟨2⟩ "p:k" (some "u") "v"]
    let resolve : Resolver := fun qualifier => if qualifier = "p" then some "u" else none
    let scope := Scope.startingAt d ⟨3⟩ .core (fun _ => none) (some resolve)
    let inner : Expr := .path .context [.mk .attribute (.name ⟨some "p", "k"⟩) []]
    let e : Expr := .path .root [.mk .descendant .anyName [inner], .mk .ancestor (.anyWith "p") []]
    e.Everywhere (fun _ => True) (Step.WrittenAsResolved scope.document resolve) ∧
      e.evaluate scope (.on ⟨3⟩) = .ok (.nodes [⟨1⟩]) ∧
      e.evaluate { scope with resolver := none } (.on ⟨3⟩) = .ok (.nodes [⟨1⟩]) := by
  intro d resolve scope inner e
  have hwrites : d.Writes "p" "u" := by
    have hall : ∀ id ∈ d.ids, d.qualifier? id = some "p" ↔ d.uri? id = some "u" := by decide
    exact fun id hid => hall id (mem_ids.mpr hid)
  have hstep : ∀ qualifier ∈ some "p", ∃ uri, resolve qualifier = some uri ∧ d.Writes qualifier uri := by
    rintro _ ⟨⟩
    exact ⟨"u", rfl, hwrites⟩
  have hinner : inner.Everywhere (fun _ => True) (Step.WrittenAsResolved scope.document resolve) :=
    ⟨trivial, trivial, ⟨hstep, trivial⟩, trivial⟩
  have he : e.Everywhere (fun _ => True) (Step.WrittenAsResolved scope.document resolve) :=
    ⟨trivial, trivial, ⟨(fun _ h => nomatch h), hinner, trivial⟩, ⟨hstep, trivial⟩, trivial⟩
  have hvalue : e.evaluate scope (.on ⟨3⟩) = .ok (.nodes [⟨1⟩]) := by decide
  exact ⟨he, hvalue, (resolved_eq_written rfl he _).symm.trans hvalue⟩

end XPath
