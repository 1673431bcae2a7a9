import XPath.Proofs.Eval.Position
/-! Predicates whose values are no numbers. Such a predicate keeps a node where its value is true,
and one that reads no position either keeps it for what the node is. Two predicates in a row then
come to a single one, their conjunction: the second is evaluated at just the nodes that the first
keeps, although it sees other positions there. -/
namespace XPath
set_option autoImplicit false

variable {scope : Scope} {focus : Focus} {ids found : List NodeId} {e p q : Expr} {x : NodeId}

/-! ## Lists of nodes -/

section Tests

variable {test first : NodeId → Nat → Except EvalError Bool} {second : NodeId → Except EvalError Bool}
  {position position' : Nat}

theorem keepWhere_cons_eq_ok_iff : keepWhere test position (x :: ids) = .ok found ↔
    ∃ keep kept, test x position = .ok keep ∧ keepWhere test (position + 1) ids = .ok kept ∧
      found = if keep then x :: kept else kept := by
  simp only [keepWhere, bind_eq_ok_iff, pure, Except.pure, Except.ok.injEq, eq_comm (a := found),
    exists_and_left]

/-- A test that does not look at positions may follow another one node by node. -/
theorem keepWhere_keepWhere :
    (do keepWhere (fun id _ => second id) position' (← keepWhere first position ids)) = .ok found ↔
      keepWhere (fun id position => do if ← first id position then second id else return false)
        position ids = .ok found := by
  induction ids generalizing position position' found with
  | nil => rfl
  | cons x rest ih =>
    simp only [bind_eq_ok_iff] at ih ⊢
    simp only [keepWhere_cons_eq_ok_iff]
    constructor
    · rintro ⟨_, ⟨keep, kept, hkeep, hkept, rfl⟩, hfound⟩
      cases keep with
      | false => exact ⟨false, found, by rw [hkeep]; rfl, ih.mp ⟨kept, hkept, hfound⟩, rfl⟩
      | true =>
        obtain ⟨keep', kept', hkeep', hkept', rfl⟩ := keepWhere_cons_eq_ok_iff.mp hfound
        exact ⟨keep', kept', by rw [hkeep]; exact hkeep', ih.mp ⟨kept, hkept, hkept'⟩, rfl⟩
    · rintro ⟨keep', kept', hkeep, hkept, rfl⟩
      obtain ⟨keep, hfirst, hsecond⟩ := bind_eq_ok hkeep
      cases keep with
      | false =>
        obtain rfl := Except.ok.inj hsecond
        obtain ⟨kept, hkept, hkept'⟩ := ih.mpr hkept
        exact ⟨kept, ⟨false, kept, hfirst, hkept, rfl⟩, hkept'⟩
      | true =>
        obtain ⟨kept, hkept, hkept'⟩ := ih.mpr hkept
        exact ⟨x :: kept, ⟨true, kept, hfirst, hkept, rfl⟩,
          keepWhere_cons_eq_ok_iff.mpr ⟨keep', kept', hsecond, hkept', rfl⟩⟩

variable {check : NodeId → Except EvalError Bool}

theorem exists_keepWhere_iff :
    (∃ found, keepWhere (fun id _ => check id) position ids = .ok found) ↔
      ∀ x ∈ ids, ∃ keep, check x = .ok keep := by
  induction ids generalizing position with
  | nil => exact iff_of_true ⟨[], rfl⟩ fun _ h => nomatch h
  | cons x rest ih =>
    rw [List.forall_mem_cons]
    simp only [keepWhere_cons_eq_ok_iff]
    constructor
    · rintro ⟨_, keep, kept, hkeep, hkept, -⟩
      exact ⟨⟨keep, hkeep⟩, ih.mp ⟨kept, hkept⟩⟩
    · rintro ⟨⟨keep, hkeep⟩, hrest⟩
      obtain ⟨kept, hkept⟩ := ih.mpr hrest
      exact ⟨_, keep, kept, hkeep, hkept, rfl⟩

theorem keepWhere_true : keepWhere (fun _ _ => .ok true) position ids = .ok ids := by
  induction ids generalizing position with
  | nil => rfl
  | cons x rest ih => exact keepWhere_cons_eq_ok_iff.mpr ⟨true, rest, rfl, ih, rfl⟩

theorem mem_keepWhere (he : keepWhere (fun id _ => check id) position ids = .ok found) :
    x ∈ found ↔ x ∈ ids ∧ check x = .ok true := by
  induction ids generalizing position found with
  | nil =>
    obtain rfl := Except.ok.inj he
    simp
  | cons y rest ih =>
    obtain ⟨keep, kept, hkeep, hkept, rfl⟩ := keepWhere_cons_eq_ok_iff.mp he
    have hy : x = y ∧ check x = .ok true ↔ x = y ∧ keep = true := by
      refine and_congr_right fun hxy => ?_
      rw [hxy, hkeep, Except.ok.injEq]
    rw [List.mem_cons, or_and_right, hy, ← ih hkept]
    cases keep <;> simp

end Tests

/-! ## Values of predicates -/

/-- The expression has no number as its value, wherever it is evaluated. -/
def Expr.NeverNumber (scope : Scope) (e : Expr) : Prop :=
  ∀ (focus : Focus) (value : Value), e.evaluate scope focus = .ok value → value.kind ≠ .number

/-- The form of an expression may tell that it is never a number. -/
theorem neverNumber_of_kind? (h : scope.functions.Reachable) {k : Kind} (hk : e.kind? = some k)
    (hne : k ≠ .number) (hextended : ¬ e.IsExtended scope.functions) : e.NeverNumber scope := by
  intro focus value he
  rw [kind_of_evaluate h hk hextended he]
  exact hne

/-- Whether an expression is true in a focus. -/
def Expr.holds (scope : Scope) (focus : Focus) (e : Expr) : Except EvalError Bool := do
  return (← e.evaluate scope focus).truth

theorem selects_eq_truth {value : Value} (hvalue : value.kind ≠ .number) (position : Nat) :
    value.selects position = value.truth := by
  cases value with
  | number value => exact absurd rfl hvalue
  | _ => rfl

theorem Expr.NeverNumber.selects (hp : p.NeverNumber scope) (focus : Focus) (position : Nat) :
    (do return (← p.evaluate scope focus).selects position) = p.holds scope focus := by
  unfold Expr.holds
  cases hvalue : p.evaluate scope focus with
  | error error => rfl
  | ok value => exact congrArg Except.ok (selects_eq_truth (hp focus value hvalue) position)

theorem narrow_cons (hp : p.NeverNumber scope) (rest : List Expr) (ids : List NodeId) :
    narrow scope (p :: rest) ids = (do
      let kept ← keepWhere (fun id position => p.holds scope ⟨id, position, ids.length⟩) 1 ids
      narrow scope rest kept) := by
  rw [narrow]
  simp only [hp.selects]

theorem narrow_append (before after : List Expr) (ids : List NodeId) :
    narrow scope (before ++ after) ids = (do narrow scope after (← narrow scope before ids)) := by
  induction before generalizing ids with
  | nil => rfl
  | cons predicate rest ih =>
    rw [List.cons_append, narrow, narrow, bind_assoc]
    exact bind_congr fun kept => ih kept

/-! ## Conjunctions -/

/-- A conjunction does not evaluate its second part where the first one fails to hold. -/
theorem holds_and : (Expr.binary .and p q).holds scope focus =
    (do if ← p.holds scope focus then q.holds scope focus else return false) := by
  unfold Expr.holds
  rw [Expr.evaluate, bind_assoc, bind_assoc]
  refine bind_congr fun first => ?_
  rw [pure_bind]
  cases hfirst : first.truth with
  | false =>
    have hshortcut : BinaryOp.and.shortcut? first = some false := by
      rw [BinaryOp.shortcut?, hfirst]
      rfl
    simp only [hshortcut]
    rfl
  | true =>
    have hshortcut : BinaryOp.and.shortcut? first = none := by
      rw [BinaryOp.shortcut?, hfirst]
      rfl
    simp only [hshortcut, bind_assoc]
    refine bind_congr fun second => ?_
    exact congrArg (fun b => Except.ok (b && second.truth)) hfirst

/-! ## Predicates that look at the node only -/

/-- The predicate keeps a node for what the node is, not for where it stands. -/
structure Expr.LooksAtNode (scope : Scope) (p : Expr) : Prop where
  position : p.readsPosition = false
  number : p.NeverNumber scope

theorem Expr.LooksAtNode.holds (hp : p.LooksAtNode scope) (h : scope.functions.Reachable)
    (id : NodeId) (position size : Nat) :
    p.holds scope ⟨id, position, size⟩ = p.holds scope (.on id) := by
  have hnode : (⟨id, position, size⟩ : Focus).node = (Focus.on id).node := rfl
  rw [Expr.holds, Expr.holds, evaluate_eq_of_node h hnode p hp.position]

theorem narrow_cons_of_node (h : scope.functions.Reachable) (hp : p.LooksAtNode scope)
    (rest : List Expr) (ids : List NodeId) :
    narrow scope (p :: rest) ids = (do
      let kept ← keepWhere (fun id _ => p.holds scope (.on id)) 1 ids
      narrow scope rest kept) := by
  have htest : (fun id position => p.holds scope ⟨id, position, ids.length⟩) =
      fun id _ => p.holds scope (.on id) := by
    funext id position
    exact hp.holds h id position ids.length
  rw [narrow_cons hp.number, htest]

/-- Whether all expressions of a list are true at a node. -/
def holdAll (scope : Scope) (id : NodeId) : List Expr → Except EvalError Bool
  | [] => return true
  | expr :: rest => do
    if ← expr.holds scope (.on id) then holdAll scope id rest else return false

section Narrow

variable {predicates : List Expr}

theorem narrow_eq_ok_iff (h : scope.functions.Reachable)
    (hpredicates : ∀ p ∈ predicates, p.LooksAtNode scope) :
    narrow scope predicates ids = .ok found ↔
      keepWhere (fun id _ => holdAll scope id predicates) 1 ids = .ok found := by
  induction predicates generalizing ids found with
  | nil =>
    have htrue : keepWhere (fun id _ => holdAll scope id []) 1 ids = .ok ids := keepWhere_true
    rw [narrow, htrue]
    rfl
  | cons p rest ih =>
    obtain ⟨hp, hrest⟩ := List.forall_mem_cons.mp hpredicates
    rw [narrow_cons_of_node h hp, bind_eq_ok_iff]
    simp only [ih hrest]
    rw [← bind_eq_ok_iff, keepWhere_keepWhere]
    rfl

/-- Such predicates fail on a list if and only if they fail at one of its nodes. -/
theorem exists_narrow_iff (h : scope.functions.Reachable)
    (hpredicates : ∀ p ∈ predicates, p.LooksAtNode scope) :
    (∃ found, narrow scope predicates ids = .ok found) ↔
      ∀ x ∈ ids, ∃ keep, holdAll scope x predicates = .ok keep := by
  simp only [narrow_eq_ok_iff h hpredicates]
  exact exists_keepWhere_iff

theorem mem_narrow (h : scope.functions.Reachable)
    (hpredicates : ∀ p ∈ predicates, p.LooksAtNode scope)
    (he : narrow scope predicates ids = .ok found) :
    x ∈ found ↔ x ∈ ids ∧ holdAll scope x predicates = .ok true :=
  mem_keepWhere ((narrow_eq_ok_iff h hpredicates).mp he)

end Narrow

/-! ## Joining predicates -/

/-- Two predicates in a row, neither of them ever a number and the second one without an eye to
positions, keep the same nodes as their conjunction and fail on the same lists, whatever predicates
come before and after them. -/
theorem predicates_join (h : scope.functions.Reachable) (hp : p.NeverNumber scope)
    (hq : q.NeverNumber scope) (hposition : q.readsPosition = false) (before after : List Expr)
    (ids found : List NodeId) :
    narrow scope (before ++ p :: q :: after) ids = .ok found ↔
      narrow scope (before ++ .binary .and p q :: after) ids = .ok found := by
  have hand : (Expr.binary .and p q).NeverNumber scope :=
    neverNumber_of_kind? h rfl (by decide : Kind.boolean ≠ .number) fun hextended => hextended
  have hq' : q.LooksAtNode scope := ⟨hposition, hq⟩
  rw [narrow_append, narrow_append, bind_eq_ok_iff, bind_eq_ok_iff]
  refine exists_congr fun candidates => and_congr_right fun _ => ?_
  have hjoined : (fun id position =>
      (Expr.binary .and p q).holds scope ⟨id, position, candidates.length⟩) =
      fun id position => do
        if ← p.holds scope ⟨id, position, candidates.length⟩ then q.holds scope (.on id)
        else return false := by
    funext id position
    rw [holds_and, hq'.holds h]
  rw [narrow_cons hp, narrow_cons hand, hjoined]
  simp only [narrow_cons_of_node h hq']
  rw [← bind_assoc, bind_eq_ok_iff, bind_eq_ok_iff]
  exact exists_congr fun kept => and_congr_left fun _ => keepWhere_keepWhere

/-- The last of three elements has an attribute: kept by its position first, by its name second. -/
theorem predicates_join_of_last :
    let d := Edit.afterAll .empty [.createElement "a" none, .createElement "b" none,
      .createElement "b" none, .setAttribute ⟨1⟩ "k" none "u", .setAttribute ⟨3⟩ "k" none "v"]
    let scope := Scope.startingAt d Document.root .core (fun _ => none) none
    let isLast : Expr := .binary (.compare .equal) (.call "position" []) (.call "last" [])
    let named : Expr := .path .context [.mk .attribute (.name ⟨none, "k"⟩) []]
    scope.functions.Reachable ∧ isLast.NeverNumber scope ∧ named.NeverNumber scope ∧
      named.readsPosition = false ∧
      narrow scope [.binary .and isLast named] [⟨1⟩, ⟨2⟩, ⟨3⟩] = .ok [⟨3⟩] := by
  intro d scope isLast named
  have hlast : isLast.NeverNumber scope :=
    neverNumber_of_kind? .core rfl (by decide : Kind.boolean ≠ .number) fun hextended => hextended
  have hnamed : named.NeverNumber scope :=
    neverNumber_of_kind? .core rfl (by decide : Kind.nodeSet ≠ .number) fun hextended => hextended
  have hapart : narrow scope [isLast, named] [⟨1⟩, ⟨2⟩, ⟨3⟩] = .ok [⟨3⟩] := by decide +kernel
  exact ⟨.core, hlast, hnamed, rfl, (predicates_join .core hlast hnamed rfl [] [] _ _).mp hapart⟩

end XPath
