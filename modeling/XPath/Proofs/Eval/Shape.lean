import XPath.Proofs.Document.Reachable
import XPath.Proofs.Eval.Isomorphism
/-! Evaluation depends on nothing but the shape of the tree around the context node. On isomorphic
trees every expression without variables has corresponding outcomes: the same failure, the same
scalar, or lists of corresponding nodes in the same order. -/
namespace XPath
set_option autoImplicit false

open Document

variable {scope scope' : Scope} {f : NodeId → NodeId}

/-! ## Steps -/

theorem Scope.Iso.select (hs : scope.Iso scope' f) (axis : Axis) (test : NodeTest)
    {narrow narrow' : List NodeId → Except EvalError (List NodeId)}
    (hnarrow : ∀ {l l'}, scope.Images f l l' →
      SameOutcome (scope.Images f) (narrow l) (narrow' l'))
    {ids ids' : List NodeId} (hids : scope.Images f ids ids') :
    SameOutcome (scope.Images f) (scope.select axis test narrow ids)
      (scope'.select axis test narrow' ids') := by
  by_cases haxis : axis = .namespaceNode
  · subst haxis
    rw [select_namespaceNode, select_namespaceNode]
    exact .error _
  rw [select_of_ne haxis, select_of_ne haxis, hs.resolver, ← hids.length_eq]
  refine (SameOutcome.of_eq rfl).bind fun qualification _ hqualification => ?_
  subst hqualification
  refine (sameOutcome_gather (fun x x' hx => ?_) hids).bind fun found found' hfound => ?_
  · exact hnarrow (hs.candidates hx axis qualification test)
  · split
    · exact .ok hfound
    · exact .ok (hs.inOrder hfound)

/-! ## Expressions -/

mutual

theorem Scope.Iso.evaluate (hs : scope.Iso scope' f) {focus focus' : Focus}
    (hfocus : scope.FocusImage f focus focus') (e : Expr) (he : e.Closed) :
    SameOutcome (Value.Related (scope.Images f)) (e.evaluate scope focus)
      (e.evaluate scope' focus') := by
  cases e with
  | literal text => exact .ok (.string rfl)
  | number value => exact .ok (.number rfl)
  | reference name => cases he
  | call function args =>
    rw [Expr.evaluate, Expr.evaluate]
    refine (hs.evaluateAll hfocus args he.2).bind fun values values' hvalues => ?_
    exact hs.call hfocus hvalues
  | negate operand =>
    rw [Expr.evaluate, Expr.evaluate]
    refine (hs.evaluate hfocus operand he.2).bind fun value value' hvalue => ?_
    exact .ok (.number (congrArg Number.neg (hs.toNumber hvalue)))
  | binary op left right =>
    rw [Expr.evaluate, Expr.evaluate]
    refine (hs.evaluate hfocus left he.2.1).bind fun first first' hfirst => ?_
    rw [← shortcut?_eq hfirst]
    split
    · exact .ok (.boolean rfl)
    · refine (hs.evaluate hfocus right he.2.2).bind fun second second' hsecond => ?_
      exact hs.apply hfirst hsecond op
  | filter primary predicates =>
    rw [Expr.evaluate, Expr.evaluate]
    refine (hs.evaluate hfocus primary he.2.1).bind fun value value' hvalue => ?_
    refine (sameOutcome_toNodeSet hvalue _).bind fun members members' hmembers => ?_
    refine (hs.narrow predicates he.2.2 (hs.inOrder hmembers)).bind fun found found' hfound => ?_
    exact .ok (.nodes hfound)
  | path start steps =>
    rw [Expr.evaluate, Expr.evaluate]
    refine (hs.start hfocus start he.2.1).bind fun first first' hfirst => ?_
    refine (hs.walk steps he.2.2 hfirst).bind fun found found' hfound => ?_
    exact .ok (.nodes hfound)

theorem Scope.Iso.start (hs : scope.Iso scope' f) {focus focus' : Focus}
    (hfocus : scope.FocusImage f focus focus') (start : Start)
    (he : start.Everywhere (fun e => e.isReference = false) fun _ => True) :
    SameOutcome (scope.Images f) (start.evaluate scope focus) (start.evaluate scope' focus') := by
  cases start with
  | context => exact .ok (.cons hfocus.node .nil)
  | root => exact .ok (.cons ⟨hs.tree.context.symm, rfl⟩ .nil)
  | nodes primary =>
    rw [Start.evaluate, Start.evaluate]
    refine (hs.evaluate hfocus primary he).bind fun value value' hvalue => ?_
    refine (sameOutcome_toNodeSet hvalue _).bind fun members members' hmembers => ?_
    exact .ok (hs.inOrder hmembers)

theorem Scope.Iso.step (hs : scope.Iso scope' f) (step : Step)
    (he : step.Everywhere (fun e => e.isReference = false) fun _ => True)
    {ids ids' : List NodeId} (hids : scope.Images f ids ids') :
    SameOutcome (scope.Images f) (step.evaluate scope ids) (step.evaluate scope' ids') := by
  cases step with
  | mk axis test predicates =>
    rw [Step.evaluate, Step.evaluate]
    exact hs.select axis test (fun hl => hs.narrow predicates he.2 hl) hids

theorem Scope.Iso.evaluateAll (hs : scope.Iso scope' f) {focus focus' : Focus}
    (hfocus : scope.FocusImage f focus focus') (exprs : List Expr)
    (he : EverywhereInAll (fun e => e.isReference = false) (fun _ => True) exprs) :
    SameOutcome (List.Forall₂ (Value.Related (scope.Images f)))
      (XPath.evaluateAll scope focus exprs) (XPath.evaluateAll scope' focus' exprs) := by
  cases exprs with
  | nil => exact .ok .nil
  | cons e rest =>
    rw [XPath.evaluateAll, XPath.evaluateAll]
    refine (hs.evaluate hfocus e he.1).bind fun value value' hvalue => ?_
    refine (hs.evaluateAll hfocus rest he.2).bind fun values values' hvalues => ?_
    exact .ok (.cons hvalue hvalues)

theorem Scope.Iso.narrow (hs : scope.Iso scope' f) {ids ids' : List NodeId}
    (predicates : List Expr)
    (he : EverywhereInAll (fun e => e.isReference = false) (fun _ => True) predicates)
    (hids : scope.Images f ids ids') :
    SameOutcome (scope.Images f) (XPath.narrow scope predicates ids)
      (XPath.narrow scope' predicates ids') := by
  cases predicates with
  | nil => exact .ok hids
  | cons predicate rest =>
    rw [XPath.narrow, XPath.narrow]
    refine (sameOutcome_keepWhere (fun x x' position hx => ?_) hids).bind
      fun kept kept' hkept => hs.narrow rest he.2 hkept
    have hfocus : scope.FocusImage f ⟨x, position, ids.length⟩ ⟨x', position, ids'.length⟩ :=
      ⟨hx, rfl, hids.length_eq⟩
    exact (hs.evaluate hfocus predicate he.1).bind fun value value' hvalue =>
      .ok (selects_eq hvalue position)

theorem Scope.Iso.walk (hs : scope.Iso scope' f) {ids ids' : List NodeId} (steps : List Step)
    (he : EverywhereInSteps (fun e => e.isReference = false) (fun _ => True) steps)
    (hids : scope.Images f ids ids') :
    SameOutcome (scope.Images f) (XPath.walk scope steps ids) (XPath.walk scope' steps ids') := by
  cases steps with
  | nil => exact .ok hids
  | cons step rest =>
    rw [XPath.walk, XPath.walk]
    exact (hs.step step he.1 hids).bind fun found found' hfound => hs.walk rest he.2 hfound

end

/-! ## Evaluation at a node -/

/-- The value with every node replaced. -/
def Value.mapNodes (f : NodeId → NodeId) : Value → Value
  | nodes ids => nodes (ids.map f)
  | value => value

theorem SameOutcome.eq_mapNodes {result result' : Except EvalError Value}
    (h : SameOutcome (Value.Related (scope.Images f)) result result') :
    result' = Value.mapNodes f <$> result ∧
      ∀ ids, result = .ok (.nodes ids) → ∀ x ∈ ids, x ∈ scope.document.tree scope.root := by
  cases h with
  | error e => exact ⟨rfl, fun ids he => by cases he⟩
  | ok hvalue =>
    cases hvalue with
    | nodes hids =>
      obtain ⟨rfl, hmem⟩ := images_iff.mp hids
      exact ⟨rfl, fun ids he => by cases he; exact hmem⟩
    | string h => exact ⟨by rw [h]; rfl, fun ids he => by cases he⟩
    | number h => exact ⟨by rw [h]; rfl, fun ids he => by cases he⟩
    | boolean h => exact ⟨by rw [h]; rfl, fun ids he => by cases he⟩

theorem mapNodes_id : Value.mapNodes id = id := by
  funext value
  cases value <;> simp [Value.mapNodes]

theorem iso_startingAt {d d' : Document} {c c' : NodeId} (h : d.WellFormed) (h' : d'.WellFormed)
    (hc : c.index < d.size) (hf : d.TreeIso d' c c' f) (functions : FunctionLibrary)
    (bindings bindings' : String → Option Value) (resolver : Option Resolver) :
    (Scope.startingAt d c functions bindings resolver).Iso
      (Scope.startingAt d' c' functions bindings' resolver) f :=
  ⟨h, h', h.top_lt_size hc, hf.at_top h h', rfl, rfl⟩

/-- An expression without variables has the same outcome at the context node of every isomorphic
tree, up to the names of the nodes, and yields nodes of that tree only. In particular nothing
changes as long as the nodes of the tree are left alone. -/
theorem evaluate_depends_on_tree {d : Document} {c : NodeId} {e : Expr} (h : d.Reachable)
    (hc : c.index < d.size) (he : e.Closed) (functions : FunctionLibrary)
    (bindings : String → Option Value) (resolver : Option Resolver) :
    let result := e.evaluate (Scope.startingAt d c functions bindings resolver) (.on c)
    (∀ (d' : Document) (c' : NodeId) (f : NodeId → NodeId) (bindings' : String → Option Value),
      d'.Reachable → d.TreeIso d' c c' f →
      e.evaluate (Scope.startingAt d' c' functions bindings' resolver) (.on c') =
        Value.mapNodes f <$> result) ∧
    (∀ (d' : Document) (bindings' : String → Option Value), d'.Reachable →
      (∀ x, d.top x = d.top c → d'.node? x = d.node? x) →
      e.evaluate (Scope.startingAt d' c functions bindings' resolver) (.on c) = result) ∧
    ∀ ids, result = .ok (.nodes ids) → ∀ x ∈ ids, d.top x = d.top c := by
  intro result
  have hwf := h.wellFormed
  have key : ∀ (d' : Document) (c' : NodeId) (f : NodeId → NodeId)
      (bindings' : String → Option Value), d'.Reachable → d.TreeIso d' c c' f →
      e.evaluate (Scope.startingAt d' c' functions bindings' resolver) (.on c') =
        Value.mapNodes f <$> result ∧
      ∀ ids, result = .ok (.nodes ids) → ∀ x ∈ ids, x ∈ d.tree (d.top c) := by
    intro d' c' f bindings' h' hf
    have hs := iso_startingAt hwf h'.wellFormed hc hf functions bindings bindings' resolver
    have hfocus :
        (Scope.startingAt d c functions bindings resolver).FocusImage f (.on c) (.on c') :=
      ⟨⟨hf.context.symm, (hwf.top_of_parent?_eq_none hwf.parent?_top).symm⟩, rfl, rfl⟩
    exact (hs.evaluate hfocus e he).eq_mapNodes
  have hself := TreeIso.of_kept (c := c) hwf hwf fun _ _ => rfl
  refine ⟨fun d' c' f bindings' h' hf => (key d' c' f bindings' h' hf).1,
    fun d' bindings' h' hkept => ?_, fun ids hids x hx => ?_⟩
  · have hiso := TreeIso.of_kept hwf h'.wellFormed hkept
    rw [(key d' c id bindings' h' hiso).1, mapNodes_id, id_map]
  · have hmem := (key d c id bindings h hself).2 ids hids x hx
    rwa [hwf.tree_top] at hmem

/-- An element with a text, made in one order in one document and in the other order in another,
where it stands below the document node. -/
theorem evaluate_depends_on_tree_of_order :
    let d := Edit.afterAll .empty [.createElement "a" none, .createText "t",
      .appendChild ⟨1⟩ ⟨2⟩]
    let d' := Edit.afterAll .empty [.createComment "", .createText "t", .createElement "a" none,
      .appendChild ⟨3⟩ ⟨2⟩, .appendChild root ⟨1⟩]
    let f : NodeId → NodeId := fun x => if x = ⟨1⟩ then ⟨3⟩ else x
    let e : Expr := .path .root [.toAny .descendantOrSelf, .mk .child .text []]
    d.Reachable ∧ (⟨1⟩ : NodeId).index < d.size ∧ e.Closed ∧ d'.Reachable ∧
      d.TreeIso d' ⟨1⟩ ⟨3⟩ f ∧
      e.evaluate (Scope.startingAt d' ⟨3⟩ .core (fun _ => none) none) (.on ⟨3⟩) =
        .ok (.nodes [⟨2⟩]) := by
  intro d d' f e
  have h : d.Reachable := Document.Reachable.empty.afterAll _
  have h' : d'.Reachable := Document.Reachable.empty.afterAll _
  have hc : (⟨1⟩ : NodeId).index < d.size := by decide
  have he : e.Closed := by simp [e, Expr.Closed, Expr.Everywhere, Start.Everywhere,
    EverywhereInSteps, Step.Everywhere, EverywhereInAll, Step.toAny, Expr.isReference]
  have hf : d.TreeIso d' ⟨1⟩ ⟨3⟩ f := by
    let g : NodeId → NodeId := fun x => if x = ⟨3⟩ then ⟨1⟩ else x
    have hc' : (⟨3⟩ : NodeId).index < d'.size := by decide
    have hinv : Set.InvOn g f (d.tree ⟨1⟩) (d'.tree ⟨3⟩) :=
      ⟨h.wellFormed.forall_mem_tree hc (by decide),
        h'.wellFormed.forall_mem_tree hc' (by decide)⟩
    have hmaps : ∀ x ∈ d.tree ⟨1⟩, d'.top (f x) = d'.top ⟨3⟩ :=
      h.wellFormed.forall_mem_tree hc (by decide)
    have hmaps' : ∀ x ∈ d'.tree ⟨3⟩, d.top (g x) = d.top ⟨1⟩ :=
      h'.wellFormed.forall_mem_tree hc' (by decide)
    refine ⟨hinv.bijOn hmaps hmaps', by decide, ?_, ?_, ?_, ?_⟩
    all_goals exact h.wellFormed.forall_mem_tree hc (by decide)
  refine ⟨h, hc, he, h', hf, ?_⟩
  have himage := (evaluate_depends_on_tree h hc he .core (fun _ => none) none).1 d' ⟨3⟩ f
    (fun _ => none) h' hf
  rw [himage]
  decide

end XPath
