import XPath.Expr.WellTyped
import XPath.Proofs.Document.Reach
import XPath.Proofs.Eval.Union
import XPath.Proofs.Number.Rational
/-! Positions in predicates. In a step they count along the axis, from the node that the step is taken
from; in a filter they count in document order. A number as predicate keeps the node at its position,
and `last()` is the number of the last position. -/
namespace XPath
set_option autoImplicit false

open Document

variable {scope : Scope} {focus : Focus} {ids found l : List NodeId} {n : NodeId} {k : Nat}
  {axis : Axis} {test : NodeTest} {predicates : List Expr} {p : Expr}

/-! ## One position -/

/-- A test that lets one position through keeps the node that stands there, if there is one. -/
theorem keepWhere_position {keep : NodeId → Nat → Except EvalError Bool} {start : Nat}
    (hkeep : ∀ id position, position < start + ids.length →
      keep id position = .ok (decide (k = position))) :
    keepWhere keep start ids = .ok (if start ≤ k then ids[k - start]?.toList else []) := by
  induction ids generalizing start with
  | nil => simp [keepWhere, pure, Except.pure]
  | cons id rest ih =>
    have hrest := @ih (start + 1) fun id position hposition =>
      hkeep id position (by rw [List.length_cons]; omega)
    rw [keepWhere, hkeep id start (by simp), hrest]
    rcases Nat.lt_trichotomy start k with hlt | rfl | hgt
    · obtain ⟨j, rfl⟩ := Nat.exists_eq_add_of_lt hlt
      have hindex : start + j + 1 - start = j + 1 := by omega
      have hindex' : start + j + 1 - (start + 1) = j := by omega
      rw [if_pos (by omega), if_pos (by omega), hindex, hindex', List.getElem?_cons_succ,
        decide_eq_false (by omega)]
      rfl
    · rw [if_neg (by omega), if_pos (Nat.le_refl _), Nat.sub_self, decide_eq_true rfl]
      rfl
    · rw [if_neg (by omega), if_neg (by omega), decide_eq_false (by omega)]
      rfl

/-- A predicate that is the number `k` wherever it is tried keeps the node at that position. -/
theorem narrow_position (hk : k ≤ 2 ^ 53) (hlength : ids.length < 2 ^ 53)
    (hp : ∀ id position, p.evaluate scope ⟨id, position, ids.length⟩ = .ok (.number (.ofNat k))) :
    narrow scope [p] ids = .ok (if 1 ≤ k then ids[k - 1]?.toList else []) := by
  have hkeep : ∀ id position, position < 1 + ids.length →
      (do return (← p.evaluate scope ⟨id, position, ids.length⟩).selects position) =
        (.ok (decide (k = position)) : Except EvalError Bool) := by
    intro id position hposition
    rw [hp]
    exact congrArg Except.ok (Number.equals_ofNat hk (by omega))
  rw [narrow, keepWhere_position hkeep]
  rfl

/-! ## Steps from one node -/

section Step

variable (h : scope.document.WellFormed)
include h

theorem inOrder_sublist_axis (hn : n.index < scope.document.size) (hforward : axis.isReverse = false)
    (hl : l.Sublist (axis.nodes scope.document n)) : scope.document.inOrder l = l :=
  (h.inOrder_eq_iff fun _ hx => h.lt_size_of_mem_axis hn (hl.subset hx)).mpr
    ⟨(h.pairwise_axis hforward).sublist hl, fun _ => Iff.rfl⟩

theorem inOrder_toList {node? : Option NodeId} (hnode : ∀ x ∈ node?, x.index < scope.document.size) :
    scope.document.inOrder node?.toList = node?.toList := by
  rw [h.inOrder_eq_iff fun x hx => hnode x (Option.mem_toList.mp hx)]
  refine ⟨?_, fun _ => Iff.rfl⟩
  cases node? with
  | none => exact List.Pairwise.nil
  | some x => exact List.pairwise_singleton _ x

/-- From a single node, a step selects what its predicates keep, put in order. -/
theorem path_of_narrow {qualification : Qualification} (hn : focus.node.index < scope.document.size)
    (haxis : axis ≠ .namespaceNode)
    (hqualification : test.qualification scope.resolver = .ok qualification)
    (hfound : narrow scope predicates ((axis.nodes scope.document focus.node).filter
      (test.passes scope.document axis qualification)) = .ok found) :
    (Expr.path .context [.mk axis test predicates]).evaluate scope focus =
      .ok (.nodes (scope.document.inOrder found)) := by
  have hgather : gather (fun id => narrow scope predicates ((axis.nodes scope.document id).filter
      (test.passes scope.document axis qualification))) [focus.node] = .ok found := by
    rw [gather, hfound]
    exact congrArg Except.ok (List.append_nil found)
  have hstep : (Step.mk axis test predicates).evaluate scope [focus.node] =
      .ok (scope.document.inOrder found) := by
    rw [Step.evaluate, select_of_gather haxis hqualification hgather]
    cases hreverse : axis.isReverse with
    | true => rfl
    | false =>
      have hsublist := (narrow_sublist hfound).trans List.filter_sublist
      rw [inOrder_sublist_axis h hn hreverse hsublist]
      rfl
  rw [Expr.evaluate, Start.evaluate]
  show (do return Value.nodes (← walk scope [.mk axis test predicates] [focus.node])) = _
  rw [walk, hstep]
  rfl

/-- The predicates of a filter are tried on a list in document order. -/
theorem filter_of_narrow {e : Expr}
    (he : e.evaluate scope focus = .ok (.nodes (scope.document.inOrder ids)))
    (hfound : narrow scope predicates (scope.document.inOrder ids) = .ok found) :
    (Expr.filter e predicates).evaluate scope focus = .ok (.nodes found) := by
  rw [Expr.evaluate, he]
  show (do return Value.nodes (← narrow scope predicates
    (scope.document.inOrder (scope.document.inOrder ids)))) = _
  rw [h.inOrder_inOrder, hfound]
  rfl

end Step

/-! ## Numbers and the last position -/

theorem evaluate_last (hfunctions : scope.functions = .core) (focus : Focus) :
    (Expr.call "last" []).evaluate scope focus = .ok (.number (.ofNat focus.size)) := by
  have hfind : FunctionLibrary.core.find? "last" = some (.core .last) := rfl
  rw [Expr.evaluate, evaluateAll]
  show scope.call focus "last" [] = _
  rw [Scope.call, hfunctions, hfind]
  rfl

theorem narrow_literal {digits : List Char} (hk : Number.ofDigits digits = k) (hpos : 1 ≤ k)
    (hlt : k < 2 ^ 53) (hlength : ids.length < 2 ^ 53) :
    narrow scope [.number (.ofDecimal false digits [])] ids = .ok ids[k - 1]?.toList := by
  have hvalue : Number.ofDecimal false digits [] = .ofNat k := by
    rw [Number.ofDecimal, List.append_nil, hk]
    rfl
  rw [hvalue, narrow_position hlt.le hlength fun _ _ => rfl, if_pos hpos]

theorem narrow_last (hfunctions : scope.functions = .core) (hlength : ids.length < 2 ^ 53) :
    narrow scope [.call "last" []] ids = .ok ids.getLast?.toList := by
  rw [narrow_position hlength.le hlength fun id position => evaluate_last hfunctions _,
    List.getLast?_eq_getElem?]
  split
  · rfl
  · next hzero =>
    obtain rfl := List.length_eq_zero_iff.mp (Nat.lt_one_iff.mp (Nat.lt_of_not_le hzero))
    rfl

/-! ## Positions -/

/-- A number as the predicate of a step keeps the node at that position of the axis, among the nodes
that the axis leads to and that pass the test; `last()` keeps the farthest of them. As the predicate of
a filter, the number keeps the node at that position in document order. Where there are fewer nodes
nothing is kept. -/
theorem positions_by_proximity (h : scope.document.Reachable) (hsize : scope.document.size < 2 ^ 53)
    (hfunctions : scope.functions = .core) (hn : focus.node.index < scope.document.size)
    (hstep : (Step.mk axis test []).Fits scope.resolver) :
    ∃ qualification along forward, test.qualification scope.resolver = .ok qualification ∧
      axis.ListsAlong scope.document along (fun x => axis.Reaches scope.document focus.node x ∧
        test.passes scope.document axis qualification x = true) ∧
      scope.document.ListsForward forward (fun x => axis.Reaches scope.document focus.node x ∧
        test.passes scope.document axis qualification x = true) ∧
      (∀ digits : List Char, 1 ≤ Number.ofDigits digits → Number.ofDigits digits < 2 ^ 53 →
        let position : Expr := .number (.ofDecimal false digits [])
        (Expr.path .context [.mk axis test [position]]).evaluate scope focus =
          .ok (.nodes along[Number.ofDigits digits - 1]?.toList) ∧
        (Expr.filter (.path .context [.mk axis test []]) [position]).evaluate scope focus =
          .ok (.nodes forward[Number.ofDigits digits - 1]?.toList)) ∧
      (Expr.path .context [.mk axis test [.call "last" []]]).evaluate scope focus =
        .ok (.nodes along.getLast?.toList) := by
  have hwf := h.wellFormed
  obtain ⟨haxis, hresolver⟩ := hstep
  obtain ⟨qualification, hqualification⟩ := exists_qualification hresolver
  set along := (axis.nodes scope.document focus.node).filter
    (test.passes scope.document axis qualification) with halong
  have hlist := (hwf.listsAlong_axis axis focus.node).filter
    (test.passes scope.document axis qualification)
  have hlt : ∀ x ∈ along, x.index < scope.document.size := fun x hx =>
    hwf.lt_size_of_mem_axis hn (List.mem_of_mem_filter hx)
  have hforward : ∀ x, x ∈ scope.document.inOrder along ↔ x ∈ along := fun x => by
    rw [hwf.mem_inOrder]
    exact and_iff_left_of_imp (hlt x)
  have hlength : along.length < 2 ^ 53 := (length_le_size hlist.nodup hlt).trans_lt hsize
  have hlength' : (scope.document.inOrder along).length < 2 ^ 53 :=
    (length_le_size hwf.pairwise_inOrder.nodup fun x hx => (hwf.mem_inOrder.mp hx).2).trans_lt hsize
  have hone : ∀ k, scope.document.inOrder along[k]?.toList = along[k]?.toList := fun k =>
    inOrder_toList hwf fun x hx => hlt x (List.mem_of_getElem? hx)
  refine ⟨qualification, along, scope.document.inOrder along, hqualification, hlist,
    ⟨hwf.pairwise_inOrder, fun x => (hforward x).trans (hlist.mem_iff x)⟩,
    fun digits hpos hlt => ⟨?_, ?_⟩, ?_⟩
  · rw [path_of_narrow hwf hn haxis hqualification (narrow_literal rfl hpos hlt hlength), hone]
  · have hall : narrow scope [] along = .ok along := rfl
    have hpath := path_of_narrow hwf hn haxis hqualification hall
    exact filter_of_narrow hwf hpath (narrow_literal rfl hpos hlt hlength')
  · rw [path_of_narrow hwf hn haxis hqualification (narrow_last hfunctions hlength),
      List.getLast?_eq_getElem?, hone]

/-- Of two siblings before a node the nearer is the first and the farther the last; in document order
the farther is the first. -/
theorem positions_by_proximity_of_siblings :
    let d := Edit.afterAll .empty [.createElement "a" none, .createElement "b" none,
      .createElement "c" none, .createElement "e" none, .appendChild Document.root ⟨1⟩,
      .appendChild ⟨1⟩ ⟨2⟩, .appendChild ⟨1⟩ ⟨3⟩, .appendChild ⟨1⟩ ⟨4⟩]
    let scope := Scope.startingAt d ⟨4⟩ .core (fun _ => none) none
    let siblings (predicates : List Expr) : Expr :=
      .path .context [.mk .precedingSibling .anyName predicates]
    let first : Expr := .number (.ofDecimal false ['1'] [])
    d.Reachable ∧ d.size < 2 ^ 53 ∧ (Step.mk .precedingSibling .anyName []).Fits scope.resolver ∧
      (siblings [first]).evaluate scope (.on ⟨4⟩) = .ok (.nodes [⟨3⟩]) ∧
      (siblings [.call "last" []]).evaluate scope (.on ⟨4⟩) = .ok (.nodes [⟨2⟩]) ∧
      (Expr.filter (siblings []) [first]).evaluate scope (.on ⟨4⟩) = .ok (.nodes [⟨2⟩]) ∧
      ∃ along forward : List NodeId, along[0]? = some ⟨3⟩ ∧ along.getLast? = some ⟨2⟩ ∧
        forward[0]? = some ⟨2⟩ ∧ ∀ x, x ∈ along ↔ x ∈ forward := by
  intro d scope siblings first
  have h : d.Reachable := Document.Reachable.empty.afterAll _
  have hsize : d.size < 2 ^ 53 := by decide +kernel
  have hstep : (Step.mk .precedingSibling .anyName []).Fits scope.resolver :=
    ⟨by decide, fun _ h => nomatch h⟩
  have hnearest : (siblings [first]).evaluate scope (.on ⟨4⟩) = .ok (.nodes [⟨3⟩]) := by
    decide +kernel
  have hfarthest : (siblings [.call "last" []]).evaluate scope (.on ⟨4⟩) = .ok (.nodes [⟨2⟩]) := by
    decide +kernel
  have hfirst : (Expr.filter (siblings []) [first]).evaluate scope (.on ⟨4⟩) = .ok (.nodes [⟨2⟩]) := by
    decide +kernel
  obtain ⟨_, along, forward, -, halong, hforward, hpositions, hlast⟩ :=
    @positions_by_proximity scope (.on ⟨4⟩) _ _ h hsize rfl (by decide +kernel) hstep
  obtain ⟨hstepped, hfiltered⟩ := hpositions ['1'] (by decide) (by decide)
  have heq : ∀ {node? : Option NodeId} {x : NodeId} {outcome : Except EvalError Value},
      outcome = .ok (.nodes node?.toList) → outcome = .ok (.nodes [x]) → node? = some x :=
    fun ho hx => Option.toList_eq_singleton_iff.mp (Value.nodes.inj (Except.ok.inj (ho.symm.trans hx)))
  exact ⟨h, hsize, hstep, hnearest, hfarthest, hfirst, along, forward, heq hstepped hnearest,
    heq hlast hfarthest, heq hfiltered hfirst,
    fun x => (halong.mem_iff x).trans (hforward.mem_iff x).symm⟩

end XPath
