import XPath.Proofs.Document.Isomorphism
import XPath.Proofs.Eval.NodeSets
import XPath.Proofs.Eval.Trace
/-! The root of an evaluation. It is the top of the tree around the context node, and no predicate
sets another one. Steps stay in the trees that they start from, and `id` selects from the tree of
the root. So a predicate is tried on a node of another tree only where a variable has led there. -/
namespace XPath
set_option autoImplicit false

open Document

variable {scope : Scope} {focus : Focus} {ids : List NodeId} {T : Set NodeId}

/-! ## Sets of trees -/

/-- Around each of its nodes, the set has the whole tree. -/
def Document.HoldsTrees (d : Document) (T : Set NodeId) : Prop := ∀ x ∈ T, d.tree x ⊆ T

theorem holdsTrees_tree (d : Document) (c : NodeId) : d.HoldsTrees (d.tree c) :=
  fun _ hx _ hy => hy.trans hx

/-- All members of the set that a value stands for are in `T`. -/
def Value.MembersIn (d : Document) (T : Set NodeId) : Value → Prop
  | nodes ids => ∀ x ∈ d.inOrder ids, x ∈ T
  | _ => True

theorem membersIn_nodes {d : Document} (h : d.WellFormed) (hids : ∀ x ∈ ids, x ∈ T) :
    (Value.nodes ids).MembersIn d T := fun x hx => hids x (h.mem_inOrder.mp hx).1

theorem membersIn_of_kind_ne {d : Document} {value : Value} (h : value.kind ≠ .nodeSet) :
    value.MembersIn d T := by
  cases value with
  | nodes ids => exact absurd rfl h
  | _ => trivial

theorem mem_of_toNodeSet {d : Document} {value : Value} {purpose : String}
    (hvalue : value.MembersIn d T) (he : value.toNodeSet purpose = .ok ids) :
    ∀ x ∈ d.inOrder ids, x ∈ T := by
  cases value with
  | nodes members => exact Except.ok.inj he ▸ hvalue
  | _ => cases he

/-- If the expression is a variable, the members of its value are in `T`. -/
def Expr.VariableIn (scope : Scope) (T : Set NodeId) : Expr → Prop
  | .reference name => ∀ value, scope.bindings name = some value → value.MembersIn scope.document T
  | _ => True

theorem Expr.Closed.variablesIn {e : Expr} (he : e.Closed) :
    e.Everywhere (Expr.VariableIn scope T) fun _ => True := by
  refine he.imp (fun e hreference => ?_) fun _ _ => trivial
  cases e with
  | reference name => cases hreference
  | _ => trivial

/-! ## The nodes that an evaluation comes by -/

/-- What `id` selects lies in the tree of the root. -/
theorem mem_tree_of_apply_id (h : scope.document.WellFormed) {args : List Value}
    (he : CoreFunction.id.apply scope focus args = .ok (.nodes ids)) :
    ∀ x ∈ ids, x ∈ scope.document.tree scope.root := by
  obtain ⟨texts, hids⟩ := apply_id_cases he
  obtain rfl := Value.nodes.inj hids
  exact fun x hx => h.mem_tree_of_mem_subtree mem_tree_self (List.mem_filter.mp hx).1

section Trees

variable (h : scope.document.WellFormed)
include h

theorem membersIn_operator {op : BinaryOp} {first second value : Value}
    (hfirst : first.MembersIn scope.document T) (hsecond : second.MembersIn scope.document T)
    (he : op.apply scope.document first second = .ok value) :
    value.MembersIn scope.document T := by
  cases op with
  | union =>
    obtain ⟨firstMembers, hleft, he⟩ := bind_eq_ok he
    obtain ⟨secondMembers, hright, he⟩ := bind_eq_ok he
    obtain rfl := Except.ok.inj he
    refine membersIn_nodes h fun x hx => ?_
    obtain ⟨hx, hlt⟩ := h.mem_inOrder.mp hx
    rcases List.mem_append.mp hx with hx | hx
    · exact mem_of_toNodeSet hfirst hleft x (h.mem_inOrder.mpr ⟨hx, hlt⟩)
    · exact mem_of_toNodeSet hsecond hright x (h.mem_inOrder.mpr ⟨hx, hlt⟩)
  | _ =>
    obtain rfl := Except.ok.inj he
    trivial

variable (hT : scope.document.HoldsTrees T)
include hT

/-- Of the core functions, only `id` returns nodes, and it takes them from the tree of the root. -/
theorem membersIn_apply (hroot : scope.root ∈ T) {function : CoreFunction} {args : List Value}
    {value : Value} (he : function.apply scope focus args = .ok value) :
    value.MembersIn scope.document T := by
  cases function with
  | id =>
    obtain ⟨texts, rfl⟩ := apply_id_cases he
    exact membersIn_nodes h fun x hx => hT _ hroot (mem_tree_of_apply_id h he x hx)
  | _ =>
    refine membersIn_of_kind_ne fun hkind => ?_
    rw [kind_of_apply _ he] at hkind
    cases hkind

theorem membersIn_call (hroot : scope.root ∈ T) {name : String} {args : List Value} {value : Value}
    (he : scope.call focus name args = .ok value) : value.MembersIn scope.document T := by
  cases hfind : scope.functions.find? name with
  | none =>
    rw [Scope.call, hfind] at he
    cases he
  | some entry =>
    cases entry with
    | extension run =>
      obtain ⟨scalar, -, rfl⟩ := call_extension hfind he
      cases scalar <;> trivial
    | core function =>
      rw [Scope.call, hfind] at he
      exact membersIn_apply h hT hroot he

/-- No axis leads out of a tree. -/
theorem within_selectTraced {axis : Axis} {test : NodeTest}
    {narrow : List NodeId → Traced (List NodeId)}
    (hnarrow : ∀ l, (∀ x ∈ l, x ∈ T) → (narrow l).Within T fun found => ∀ x ∈ found, x ∈ T)
    (hids : ∀ x ∈ ids, x ∈ T) :
    (scope.selectTraced axis test narrow ids).Within T fun found => ∀ x ∈ found, x ∈ T := by
  have haxis : ∀ id ∈ ids, ∀ x ∈ axis.nodes scope.document id, x ∈ T :=
    fun id hid x hx => hT id (hids id hid) (h.mem_tree_of_mem_axis mem_tree_self hx)
  unfold Scope.selectTraced
  split
  · exact Traced.within_ofOutcome fun _ he => nomatch he
  refine Traced.Within.bind (Traced.within_ofOutcome fun _ _ => trivial)
    fun qualification (_ : True) => ?_
  refine (within_gatherTraced fun id hid => hnarrow _ fun x hx => ?_).bind fun found hfound => ?_
  · exact haxis id hid x (List.mem_filter.mp hx).1
  refine Traced.within_pure ?_
  split
  · exact hfound
  · exact fun x hx => hfound x (h.mem_inOrder.mp hx).1

end Trees

mutual

/-- An evaluation that begins in a set of whole trees, with variables whose members are there, does
not leave it. -/
theorem within_traced (h : scope.document.WellFormed) (hT : scope.document.HoldsTrees T)
    (hroot : scope.root ∈ T) {focus : Focus} (hfocus : focus.node ∈ T) {e : Expr}
    (he : e.Everywhere (Expr.VariableIn scope T) fun _ => True) :
    (e.traced scope focus).Within T (Value.MembersIn scope.document T) := by
  cases e with
  | literal text =>
    rw [Expr.traced]
    exact Traced.within_ofOutcome fun _ hvalue => Except.ok.inj hvalue ▸ trivial
  | number value =>
    rw [Expr.traced]
    exact Traced.within_ofOutcome fun _ hvalue => Except.ok.inj hvalue ▸ trivial
  | reference name =>
    rw [Expr.traced]
    refine Traced.within_ofOutcome fun value hvalue => ?_
    rw [Expr.evaluate] at hvalue
    cases hbinding : scope.bindings name with
    | none =>
      rw [hbinding] at hvalue
      cases hvalue
    | some bound =>
      rw [hbinding] at hvalue
      obtain rfl := Except.ok.inj hvalue
      exact he bound hbinding
  | call function args =>
    rw [Expr.traced]
    refine (within_tracedAll h hT hroot hfocus he.2).bind fun values _ => ?_
    exact Traced.within_ofOutcome fun value hvalue => membersIn_call h hT hroot hvalue
  | negate operand =>
    rw [Expr.traced]
    exact (within_traced h hT hroot hfocus he.2).bind fun value _ => Traced.within_pure trivial
  | binary op left right =>
    rw [Expr.traced]
    refine (within_traced h hT hroot hfocus he.2.1).bind fun first hfirst => ?_
    cases op.shortcut? first with
    | some decided => exact Traced.within_pure trivial
    | none =>
      refine (within_traced h hT hroot hfocus he.2.2).bind fun second hsecond => ?_
      exact Traced.within_ofOutcome fun value hvalue => membersIn_operator h hfirst hsecond hvalue
  | filter primary predicates =>
    rw [Expr.traced]
    refine (within_traced h hT hroot hfocus he.2.1).bind fun value hvalue => ?_
    refine (Traced.within_ofOutcome fun members => mem_of_toNodeSet hvalue).bind
      fun members hmembers => ?_
    refine (within_narrowTraced h hT hroot he.2.2 hmembers).bind fun found hfound => ?_
    exact Traced.within_pure (membersIn_nodes h hfound)
  | path start steps =>
    rw [Expr.traced]
    refine (within_startTraced h hT hroot hfocus he.2.1).bind fun first hfirst => ?_
    refine (within_walkTraced h hT hroot he.2.2 hfirst).bind fun found hfound => ?_
    exact Traced.within_pure (membersIn_nodes h hfound)

theorem within_startTraced (h : scope.document.WellFormed) (hT : scope.document.HoldsTrees T)
    (hroot : scope.root ∈ T) {focus : Focus} (hfocus : focus.node ∈ T) {start : Start}
    (he : start.Everywhere (Expr.VariableIn scope T) fun _ => True) :
    (start.traced scope focus).Within T fun found => ∀ x ∈ found, x ∈ T := by
  cases start with
  | context =>
    rw [Start.traced]
    refine Traced.within_ofOutcome fun found hfound => ?_
    exact Except.ok.inj hfound ▸ List.forall_mem_singleton.mpr hfocus
  | root =>
    rw [Start.traced]
    refine Traced.within_ofOutcome fun found hfound => ?_
    exact Except.ok.inj hfound ▸ List.forall_mem_singleton.mpr hroot
  | nodes primary =>
    rw [Start.traced]
    refine (within_traced h hT hroot hfocus he).bind fun value hvalue => ?_
    refine (Traced.within_ofOutcome fun members => mem_of_toNodeSet hvalue).bind
      fun members hmembers => ?_
    exact Traced.within_pure hmembers

theorem within_stepTraced (h : scope.document.WellFormed) (hT : scope.document.HoldsTrees T)
    (hroot : scope.root ∈ T) {step : Step} {ids : List NodeId}
    (he : step.Everywhere (Expr.VariableIn scope T) fun _ => True) (hids : ∀ x ∈ ids, x ∈ T) :
    (step.traced scope ids).Within T fun found => ∀ x ∈ found, x ∈ T := by
  cases step with
  | mk axis test predicates =>
    rw [Step.traced]
    exact within_selectTraced h hT (fun l hl => within_narrowTraced h hT hroot he.2 hl) hids

theorem within_tracedAll (h : scope.document.WellFormed) (hT : scope.document.HoldsTrees T)
    (hroot : scope.root ∈ T) {focus : Focus} (hfocus : focus.node ∈ T) {exprs : List Expr}
    (he : EverywhereInAll (Expr.VariableIn scope T) (fun _ => True) exprs) :
    (tracedAll scope focus exprs).Within T fun _ => True := by
  cases exprs with
  | nil =>
    rw [tracedAll]
    exact Traced.within_pure trivial
  | cons e rest =>
    rw [tracedAll]
    refine (within_traced h hT hroot hfocus he.1).bind fun value _ => ?_
    exact (within_tracedAll h hT hroot hfocus he.2).bind fun values _ => Traced.within_pure trivial

theorem within_narrowTraced (h : scope.document.WellFormed) (hT : scope.document.HoldsTrees T)
    (hroot : scope.root ∈ T) {predicates : List Expr} {ids : List NodeId}
    (he : EverywhereInAll (Expr.VariableIn scope T) (fun _ => True) predicates)
    (hids : ∀ x ∈ ids, x ∈ T) :
    (narrowTraced scope predicates ids).Within T fun found => ∀ x ∈ found, x ∈ T := by
  cases predicates with
  | nil =>
    rw [narrowTraced]
    exact Traced.within_pure hids
  | cons predicate rest =>
    rw [narrowTraced]
    -- The foci of a predicate are on the candidates, which have not left `T`.
    refine (within_keepTraced fun id hid position => ?_).bind fun kept hkept => ?_
    · have hpredicate : (predicate.traced scope ⟨id, position, ids.length⟩).Within T
          (Value.MembersIn scope.document T) := within_traced h hT hroot (hids id hid) he.1
      exact (hpredicate.bind fun value _ => Traced.within_pure trivial).inFocus (hids id hid)
    · exact within_narrowTraced h hT hroot he.2 fun x hx => hids x (hkept x hx)

theorem within_walkTraced (h : scope.document.WellFormed) (hT : scope.document.HoldsTrees T)
    (hroot : scope.root ∈ T) {steps : List Step} {ids : List NodeId}
    (he : EverywhereInSteps (Expr.VariableIn scope T) (fun _ => True) steps)
    (hids : ∀ x ∈ ids, x ∈ T) :
    (walkTraced scope steps ids).Within T fun found => ∀ x ∈ found, x ∈ T := by
  cases steps with
  | nil =>
    rw [walkTraced]
    exact Traced.within_pure hids
  | cons step rest =>
    rw [walkTraced]
    exact (within_stepTraced h hT hroot he.1 hids).bind fun found hfound =>
      within_walkTraced h hT hroot he.2 hfound

end

/-! ## The root -/

section StartingAt

variable {d : Document} {c x : NodeId} {functions : FunctionLibrary}
  {bindings : String → Option Value} {resolver : Option Resolver}

/-- The scope of an evaluation that starts at a node depends on the tree around it only. -/
theorem startingAt_eq_iff :
    Scope.startingAt d c functions bindings resolver =
      Scope.startingAt d x functions bindings resolver ↔ x ∈ d.tree c := by
  simp only [Scope.startingAt, Scope.mk.injEq, true_and, and_true]
  exact eq_comm

theorem mem_of_mem_foci (h : d.WellFormed) (hT : d.HoldsTrees T) (hc : c ∈ T) {e : Expr}
    (he : e.Everywhere (Expr.VariableIn (.startingAt d c functions bindings resolver) T)
      fun _ => True) :
    ∀ focus ∈ Focus.on c ::
      (e.traced (.startingAt d c functions bindings resolver) (.on c)).foci, focus.node ∈ T := by
  have hwithin : (e.traced (.startingAt d c functions bindings resolver) (.on c)).Within T
      (Value.MembersIn d T) := within_traced h hT (hT c hc h.top_mem_tree) hc he
  exact List.forall_mem_cons.mpr ⟨hc, hwithin.foci⟩

/-- Where the scope is the one that an evaluation from the focus would have, absolute paths start in
the tree of the focus and `id` selects from it. -/
theorem absolute_in_tree (h : d.WellFormed) {focus : Focus} (hnode : focus.node ∈ d.tree c) :
    Start.root.evaluate (.startingAt d c functions bindings resolver) focus =
        .ok [d.top focus.node] ∧
      ∀ args ids, CoreFunction.id.apply (.startingAt d c functions bindings resolver) focus args =
        .ok (.nodes ids) → ∀ x ∈ ids, x ∈ d.tree focus.node := by
  refine ⟨?_, fun args ids he x hx => ?_⟩
  · rw [Start.evaluate]
    exact congrArg (fun r => Except.ok [r]) hnode.symm
  · have hx' : x ∈ d.tree (d.top c) := mem_tree_of_apply_id h he x hx
    rw [h.tree_top] at hx'
    exact hx'.trans hnode.symm

/-! ## Trees that variables lead to -/

/-- The trees that an evaluation may come by: that of its context node and those around the members
of variables. -/
def Document.reach (d : Document) (c : NodeId) (bindings : String → Option Value) : Set NodeId :=
  {x | x ∈ d.tree c ∨ ∃ name ids, bindings name = some (.nodes ids) ∧
    ∃ y ∈ d.inOrder ids, x ∈ d.tree y}

theorem holdsTrees_reach (d : Document) (c : NodeId) (bindings : String → Option Value) :
    d.HoldsTrees (d.reach c bindings) := by
  rintro x (hx | ⟨name, ids, hname, y, hy, hx⟩) z hz
  · exact Or.inl (hz.trans hx)
  · exact Or.inr ⟨name, ids, hname, y, hy, hz.trans hx⟩

theorem variablesIn_reach (e : Expr) :
    e.Everywhere (Expr.VariableIn (.startingAt d c functions bindings resolver)
      (d.reach c bindings)) fun _ => True := by
  refine e.everywhere_of_forall (fun e => ?_) fun _ => trivial
  cases e with
  | reference name =>
    intro value hvalue
    cases value with
    | nodes ids => exact fun x hx => Or.inr ⟨name, ids, hvalue, x, hx, mem_tree_self⟩
    | _ => trivial
  | _ => trivial

/-- No focus leaves the tree of the context node if and only if no variable has a member in another
one. -/
theorem foci_in_tree_iff (h : d.WellFormed) :
    (∀ e : Expr, ∀ focus ∈ Focus.on c ::
      (e.traced (.startingAt d c functions bindings resolver) (.on c)).foci,
        focus.node ∈ d.tree c) ↔
      ∀ name ids, bindings name = some (.nodes ids) → ∀ x ∈ d.inOrder ids, x ∈ d.tree c := by
  constructor
  · intro hall name ids hname x hx
    have hname' : (Scope.startingAt d c functions bindings resolver).bindings name =
      some (.nodes ids) := hname
    obtain ⟨focus, hfocus, rfl⟩ := exists_focus_of_variable hname' hx
    exact hall _ focus (List.mem_cons_of_mem _ hfocus)
  · intro hvariables e focus hfocus
    rcases mem_of_mem_foci h (holdsTrees_reach d c bindings) (Or.inl mem_tree_self)
      (variablesIn_reach e) focus hfocus with hnode | ⟨name, ids, hname, y, hy, hnode⟩
    · exact hnode
    · exact hnode.trans (hvariables name ids hname y hy)

end StartingAt

/-- Every focus that an evaluation sets has the scope that an evaluation starting at its node would
have, absolute paths and `id` in its tree included, if the variables of the expression have no
members in other trees. The foci lie in the trees of the context node and of members of variables,
and if some variable has a member elsewhere, an expression sets a focus there. -/
theorem root_is_top {d : Document} (h : d.Reachable) (c : NodeId) (functions : FunctionLibrary)
    (bindings : String → Option Value) (resolver : Option Resolver) :
    let scopeAt (x : NodeId) : Scope := .startingAt d x functions bindings resolver
    let foci (e : Expr) : List Focus := .on c :: (e.traced (scopeAt c) (.on c)).foci
    (∀ e : Expr, (e.traced (scopeAt c) (.on c)).outcome = e.evaluate (scopeAt c) (.on c)) ∧
    (∀ e : Expr, e.Everywhere (Expr.VariableIn (scopeAt c) (d.tree c)) (fun _ => True) →
      ∀ focus ∈ foci e, scopeAt c = scopeAt focus.node ∧
        Start.root.evaluate (scopeAt c) focus = .ok [d.top focus.node] ∧
        ∀ args ids, CoreFunction.id.apply (scopeAt c) focus args = .ok (.nodes ids) →
          ∀ x ∈ ids, x ∈ d.tree focus.node) ∧
    (∀ e, ∀ focus ∈ foci e, focus.node ∈ d.reach c bindings) ∧
    ((∀ e, ∀ focus ∈ foci e, scopeAt c = scopeAt focus.node) ↔
      ∀ name ids, bindings name = some (.nodes ids) → ∀ x ∈ d.inOrder ids, x ∈ d.tree c) := by
  intro scopeAt foci
  have hwf := h.wellFormed
  refine ⟨fun e => outcome_traced _ _ e, fun e he focus hfocus => ?_, fun e => ?_, ?_⟩
  · have hnode : focus.node ∈ d.tree c :=
      mem_of_mem_foci hwf (holdsTrees_tree d c) mem_tree_self he focus hfocus
    exact ⟨startingAt_eq_iff.mpr hnode, absolute_in_tree hwf hnode⟩
  · exact mem_of_mem_foci hwf (holdsTrees_reach d c bindings) (Or.inl mem_tree_self)
      (variablesIn_reach e)
  · simp only [scopeAt, startingAt_eq_iff]
    exact foci_in_tree_iff hwf

/-- An element that is no child of the document node, as the value of a variable: an absolute path
finds an element from there that it does not find in the tree of the element itself. -/
theorem root_is_top_of_detached :
    let d := Edit.afterAll .empty [.createElement "a" none, .createElement "b" none,
      .appendChild Document.root ⟨1⟩]
    let bindings : String → Option Value := fun name =>
      if name = "v" then some (.nodes [⟨2⟩]) else none
    let scopeAt (x : NodeId) : Scope := .startingAt d x .core bindings none
    let named : Expr := .path .root [.mk .child (.name ⟨none, "a"⟩) []]
    let children : Expr := .path .context [.mk .child .node [named]]
    let member : Expr := .filter (.reference "v") [named]
    children.Closed ∧
      (children.traced (scopeAt Document.root) (.on Document.root)).foci = [⟨⟨1⟩, 1, 1⟩] ∧
      scopeAt Document.root = scopeAt ⟨1⟩ ∧
      (member.traced (scopeAt Document.root) (.on Document.root)).foci = [⟨⟨2⟩, 1, 1⟩] ∧
      scopeAt Document.root ≠ scopeAt ⟨2⟩ ∧
      member.evaluate (scopeAt Document.root) (.on Document.root) = .ok (.nodes [⟨2⟩]) ∧
      named.evaluate (scopeAt ⟨2⟩) (.on ⟨2⟩) = .ok (.nodes []) := by
  intro d bindings scopeAt named children member
  have h : d.Reachable := Document.Reachable.empty.afterAll _
  have hclosed : children.Closed := by simp [children, named, Expr.Closed, Expr.Everywhere,
    Start.Everywhere, EverywhereInSteps, Step.Everywhere, EverywhereInAll, Expr.isReference]
  have hfoci : (children.traced (scopeAt Document.root) (.on Document.root)).foci =
      [⟨⟨1⟩, 1, 1⟩] := by decide +kernel
  have hscope := ((root_is_top h Document.root .core bindings none).2.1 children
    hclosed.variablesIn ⟨⟨1⟩, 1, 1⟩ (List.mem_cons_of_mem _ (hfoci ▸ List.mem_cons_self))).1
  have htop : d.top ⟨2⟩ ≠ d.top Document.root := by decide +kernel
  have hother : scopeAt Document.root ≠ scopeAt ⟨2⟩ := fun he => htop (startingAt_eq_iff.mp he)
  exact ⟨hclosed, hfoci, hscope, by decide +kernel, hother, by decide +kernel, by decide +kernel⟩

end XPath
