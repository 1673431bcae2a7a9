import Mathlib.Logic.Function.Iterate
import XPath.Proofs.Document.Order
import XPath.Proofs.Document.Reachable
import XPath.Query
import XPath.Result.Session
/-! Results in the ten requested shapes. A result of a type is what the value comes to in that type,
all shapes of one node-set have the same first member, and every accessor returns something on the
results of its own types alone. -/
namespace XPath
set_option autoImplicit false

variable {d : Document} {value : Value} {requested type : ResultType} {r : Result}
  {ids : List NodeId} {generation : Nat}

/-! ## Types -/

theorem ResultType.isNodeSet_iff : type.isNodeSet ↔ 4 ≤ type.code ∧ type.code ≤ 9 := by
  cases type <;> decide

/-- The type of the result when a value of the given kind is requested as some type. -/
def ResultType.delivered (requested : ResultType) (kind : Kind) : ResultType :=
  if requested = .any then .natural kind else requested

/-! ## Materialization -/

/-- The members of a node-set in document order. Other values have none. -/
def Value.members (d : Document) : Value → List NodeId
  | .nodes ids => d.inOrder ids
  | _ => []

/-- What a value comes to in a type. -/
def Value.payload (value : Value) (d : Document) (type : ResultType) : Payload :=
  match type with
  | .number => .number (value.toNumber d)
  | .string => .string (value.toText d)
  | .boolean => .boolean value.truth
  | type => .ofNodes type (value.members d) d.generation

theorem materialize_eq : value.materialize d requested =
    if value.kind ≠ .nodeSet ∧ requested.isNodeSet then .error (.wrongType value.kind requested)
    else
      .ok ⟨requested.delivered value.kind, value.payload d (requested.delivered value.kind)⟩ := by
  cases requested <;> cases value <;> rfl

theorem delivered_ne_any {kind : Kind} : requested.delivered kind ≠ .any := by
  cases requested <;> cases kind <;> decide

theorem delivered_of_isNodeSet {kind : Kind} (h : requested.isNodeSet) :
    requested.delivered kind = requested := by
  cases requested <;> first | rfl | cases h

/-- Only a node-set can be had as nodes. -/
theorem materialize_eq_ok_iff (requested : ResultType) (h : requested.isNodeSet) :
    value.materialize d requested = .ok r ↔
      value.kind = .nodeSet ∧ r = ⟨requested, value.payload d requested⟩ := by
  rw [materialize_eq, delivered_of_isNodeSet h]
  by_cases hkind : value.kind = .nodeSet <;> simp [h, hkind, eq_comm]

/-! ## Iterators -/

/-- Calls without a change of the document return the members one by one, and none from then on. -/
theorem iterateNext_iterate (steps : Nat) :
    (((Result.advance · generation)^[steps]
      ⟨type, .iterator (.ofList ids generation)⟩).iterateNext generation).1 = .ok ids[steps]? := by
  induction steps generalizing ids with
  | zero =>
    cases ids with
    | nil => simp [Result.iterateNext, NodeIterator.next, NodeIterator.ofList]
    | cons id rest => simp [Result.iterateNext, NodeIterator.next, NodeIterator.ofList]
  | succ steps ih =>
    rw [Function.iterate_succ_apply]
    cases ids with
    | nil =>
      have hlast : Result.advance ⟨type, .iterator (.ofList [] generation)⟩ generation =
          ⟨type, .iterator ⟨[], generation, .exhausted⟩⟩ := by
        simp [Result.advance, Result.iterateNext, NodeIterator.next, NodeIterator.ofList]
      rw [hlast, Function.iterate_fixed rfl]
      rfl
    | cons id rest =>
      have hrest : Result.advance ⟨type, .iterator (.ofList (id :: rest) generation)⟩ generation =
          ⟨type, .iterator (.ofList rest generation)⟩ := by
        simp [Result.advance, Result.iterateNext, NodeIterator.next, NodeIterator.ofList]
      rw [hrest, ih]
      rfl

/-! ## Accessors -/

/-- What the accessors of a result return that comes to a number, a text, a truth value or members
by its type, as long as its document stays in one generation. An accessor of other types fails. -/
structure Result.Delivers (r : Result) (generation : Nat) (number : Number) (text : String)
    (truth : Bool) (members : List NodeId) : Prop where
  numberValue : r.numberValue =
    if r.type = .number then .ok number else .error (.invalidAccess .number r.type)
  stringValue : r.stringValue =
    if r.type = .string then .ok text else .error (.invalidAccess .string r.type)
  booleanValue : r.booleanValue =
    if r.type = .boolean then .ok truth else .error (.invalidAccess .boolean r.type)
  singleNodeValue : r.singleNodeValue =
    if r.type.isSingleNode then .ok members.head? else .error (.invalidAccess .singleNode r.type)
  snapshot : r.snapshot =
    if r.type.isSnapshot then .ok members else .error (.invalidAccess .snapshotItem r.type)
  snapshotLength : r.snapshotLength =
    if r.type.isSnapshot then .ok members.length
    else .error (.invalidAccess .snapshotLength r.type)
  snapshotItem : ∀ index, r.snapshotItem index =
    if r.type.isSnapshot then
      if h : index < members.length then .ok members[index]
      else .error (.index index members.length)
    else .error (.invalidAccess .snapshotItem r.type)
  /-- The calls of an iterator return the members one by one and none from then on. -/
  iterateNext : ∀ steps, (((Result.advance · generation)^[steps] r).iterateNext generation).1 =
    if r.type.isIterator then .ok members[steps]? else .error (.invalidAccess .next r.type)
  invalidIteratorState : ∀ current,
    r.invalidIteratorState current = (r.type.isIterator && current != generation)

/-- Other results than iterators are not changed by calls that fail. -/
theorem iterateNext_of_ne (hr : ∀ it, r.payload ≠ .iterator it) (steps : Nat) :
    (((Result.advance · generation)^[steps] r).iterateNext generation).1 =
      .error (.invalidAccess .next r.type) := by
  have hnext : r.iterateNext generation = (.error (.invalidAccess .next r.type), r) := by
    unfold Result.iterateNext
    split
    · next it hit => exact absurd hit (hr it)
    · rfl
  have hfixed : Result.advance r generation = r := by rw [Result.advance, hnext]
  rw [Function.iterate_fixed hfixed, hnext]

theorem getElem?_eq_dite (members : List NodeId) (index : Nat) :
    (match members[index]? with
      | some id => Except.ok id
      | none => Except.error (ResultError.index index members.length)) =
    if h : index < members.length then Except.ok members[index]
      else Except.error (ResultError.index index members.length) := by
  by_cases h : index < members.length
  · rw [dif_pos h, List.getElem?_eq_getElem h]
  · rw [dif_neg h, List.getElem?_eq_none (Nat.le_of_not_lt h)]

theorem delivers_payload (htype : type ≠ .any) :
    (Result.mk type (value.payload d type)).Delivers d.generation (value.toNumber d)
      (value.toText d) value.truth (value.members d) where
  numberValue := by cases type <;> rfl
  stringValue := by cases type <;> rfl
  booleanValue := by cases type <;> rfl
  singleNodeValue := by
    cases type with
    | any => exact absurd rfl htype
    | _ => rfl
  snapshot := by cases type <;> rfl
  snapshotLength := by cases type <;> rfl
  snapshotItem index := by
    cases type with
    | unorderedSnapshot => exact getElem?_eq_dite _ index
    | orderedSnapshot => exact getElem?_eq_dite _ index
    | _ => rfl
  iterateNext steps := by
    cases type with
    | unorderedIterator => exact iterateNext_iterate steps
    | orderedIterator => exact iterateNext_iterate steps
    | _ => exact iterateNext_of_ne (fun it hit => by cases hit) steps
  invalidIteratorState current := by cases type <;> rfl

/-! ## Node-sets -/

theorem toText_nodes : (Value.nodes ids).toText d =
    ((d.inOrder ids).head?.map d.stringValue).getD "" := by
  rw [Value.toText, Value.firstText, Document.first?_eq_head?]

theorem toNumber_nodes : (Value.nodes ids).toNumber d = .parse ((Value.nodes ids).toText d) := rfl

theorem truth_nodes (h : d.WellFormed) (hids : ∀ id ∈ ids, id.index < d.size) :
    (Value.nodes ids).truth = !(d.inOrder ids).isEmpty := by
  have hempty : ids = [] ↔ d.inOrder ids = [] := by
    simp only [List.eq_nil_iff_forall_not_mem, h.mem_inOrder]
    grind
  rw [Value.truth]
  grind

/-! ## Documents -/

variable {text : String} {context : NodeId} {resolver : Option Resolver}

/-- The expression that a text stands for has this value at a known node. -/
def Document.HasValue (d : Document) (text : String) (context : NodeId)
    (resolver : Option Resolver) (value : Value) : Prop :=
  ∃ expr node, Expr.parse text = .ok expr ∧ d.node context = .ok node ∧
    expr.evaluate (.startingAt d context .core (fun _ => none) resolver) (.on context) = .ok value

theorem evaluate_eq_ok_iff : d.evaluate text context resolver requested = .ok r ↔
    ∃ value, d.HasValue text context resolver value ∧ value.materialize d requested = .ok r := by
  have hresolver : (resolver <|> none) = resolver := by cases resolver <;> rfl
  unfold Document.evaluate Document.HasValue Query.compile Query.run Evaluator.evaluate
  cases Expr.parse text with
  | error e => simp [Except.mapError, bind, Except.bind]
  | ok expr =>
    cases d.node context with
    | error e => simp [Except.mapError, bind, Except.bind]
    | ok node =>
      simp only [Except.mapError, bind, Except.bind, Evaluator.core, hresolver]
      cases hvalue : expr.evaluate (.startingAt d context .core (fun _ => none) resolver)
          (.on context) with
      | error e => simp [hvalue]
      | ok value => cases hr : value.materialize d requested <;> simp [hvalue, hr]

theorem selectNodes_eq_ok_iff : d.selectNodes text context = .ok ids ↔
    ∃ value, d.HasValue text context none value ∧ value.kind = .nodeSet ∧
      ids = value.members d := by
  have hresult : d.selectNodes text context = .ok ids ↔
      ∃ r, d.evaluate text context none .orderedSnapshot = .ok r ∧ r.snapshot = .ok ids := by
    unfold Document.selectNodes
    cases d.evaluate text context none .orderedSnapshot with
    | error e => simp [bind, Except.bind]
    | ok r => cases hr : r.snapshot <;> simp [bind, Except.bind, Except.mapError, hr]
  simp only [hresult, evaluate_eq_ok_iff, materialize_eq_ok_iff .orderedSnapshot rfl]
  constructor
  · rintro ⟨r, ⟨value, hvalue, hkind, rfl⟩, hids⟩
    exact ⟨value, hvalue, hkind, (Except.ok.inj hids).symm⟩
  · rintro ⟨value, hvalue, hkind, rfl⟩
    exact ⟨_, ⟨value, hvalue, hkind, rfl⟩, rfl⟩

theorem selectFirst_eq_ok_iff {first : Option NodeId} : d.selectFirst text context = .ok first ↔
    ∃ value, d.HasValue text context none value ∧ value.kind = .nodeSet ∧
      first = (value.members d).head? := by
  have hresult : d.selectFirst text context = .ok first ↔
      ∃ r, d.evaluate text context none .firstNode = .ok r ∧ r.singleNodeValue = .ok first := by
    unfold Document.selectFirst
    cases d.evaluate text context none .firstNode with
    | error e => simp [bind, Except.bind]
    | ok r => cases hr : r.singleNodeValue <;> simp [bind, Except.bind, Except.mapError, hr]
  simp only [hresult, evaluate_eq_ok_iff, materialize_eq_ok_iff .firstNode rfl]
  constructor
  · rintro ⟨r, ⟨value, hvalue, hkind, rfl⟩, hfirst⟩
    exact ⟨value, hvalue, hkind, (Except.ok.inj hfirst).symm⟩
  · rintro ⟨value, hvalue, hkind, rfl⟩
    exact ⟨_, ⟨value, hvalue, hkind, rfl⟩, rfl⟩

/-! ## All shapes of one value -/

/-- Only the types of nodes, with the codes 4 to 9, can be refused, and only to scalars. Every other
request gives a result of the requested type, or of the type that suits the value; its own accessors
deliver what the value comes to and all others fail. The shapes of a node-set show its members in
document order, each once: whether there are any, the string value of the first, the number that
this text writes. Selecting the first node of an expression succeeds exactly where selecting all of
them does, and gives the first of these. -/
theorem result_shapes_agree (h : d.Reachable) :
    (∀ (value : Value) (requested : ResultType),
      ((∃ e, value.materialize d requested = .error e) ↔
        value.kind ≠ .nodeSet ∧ 4 ≤ requested.code ∧ requested.code ≤ 9) ∧
      (∀ e, value.materialize d requested = .error e → e = .wrongType value.kind requested) ∧
      ∀ r, value.materialize d requested = .ok r →
        r.type = (if requested = .any then .natural value.kind else requested) ∧
        r.Delivers d.generation (value.toNumber d) (value.toText d) value.truth
          (value.members d)) ∧
    (∀ ids : List NodeId, (∀ id ∈ ids, id.index < d.size) →
      let value := Value.nodes ids
      let members := value.members d
      members.Pairwise d.Before ∧ (∀ id, id ∈ members ↔ id ∈ ids) ∧
      value.truth = !members.isEmpty ∧
      value.toText d = (members.head?.map d.stringValue).getD "" ∧
      value.toNumber d = .parse (value.toText d)) ∧
    ∀ text context first, d.selectFirst text context = .ok first ↔
      ∃ ids, d.selectNodes text context = .ok ids ∧ first = ids.head? := by
  have hwf := h.wellFormed
  refine ⟨fun value requested => ?_, fun ids hids => ?_, fun text context first => ?_⟩
  · rw [materialize_eq, ← ResultType.isNodeSet_iff]
    by_cases hrefused : value.kind ≠ .nodeSet ∧ requested.isNodeSet
    · rw [if_pos hrefused]
      exact ⟨iff_of_true ⟨_, rfl⟩ hrefused, fun e he => (Except.error.inj he).symm, by simp⟩
    · rw [if_neg hrefused]
      refine ⟨iff_of_false (by simp) hrefused, by simp, fun r hr => ?_⟩
      obtain rfl := Except.ok.inj hr
      exact ⟨rfl, delivers_payload delivered_ne_any⟩
  · have hmem : ∀ id, id ∈ d.inOrder ids ↔ id ∈ ids := fun id => by
      rw [hwf.mem_inOrder, and_iff_left_of_imp (hids id)]
    exact ⟨hwf.pairwise_inOrder, hmem, truth_nodes hwf hids, toText_nodes, toNumber_nodes⟩
  · rw [selectFirst_eq_ok_iff]
    constructor
    · rintro ⟨value, hvalue, hkind, rfl⟩
      exact ⟨_, selectNodes_eq_ok_iff.mpr ⟨value, hvalue, hkind, rfl⟩, rfl⟩
    · rintro ⟨ids, hids, rfl⟩
      obtain ⟨value, hvalue, hkind, rfl⟩ := selectNodes_eq_ok_iff.mp hids
      exact ⟨value, hvalue, hkind, rfl⟩

/-- Two texts in the wrong order and one of them twice: the second call of the iterator returns the
later one, and the string is that of the earlier one. -/
theorem result_shapes_agree_of_repeated :
    let d := Edit.afterAll .empty [.createElement "a" none, .createText "t", .createText "7",
      .appendChild Document.root ⟨1⟩, .appendChild ⟨1⟩ ⟨3⟩, .appendChild ⟨1⟩ ⟨2⟩]
    let value := Value.nodes [⟨2⟩, ⟨3⟩, ⟨2⟩]
    d.Reachable ∧ (∀ id ∈ [NodeId.mk 2, ⟨3⟩, ⟨2⟩], id.index < d.size) ∧
      value.members d = [⟨3⟩, ⟨2⟩] ∧
      (∀ r, value.materialize d .any = .ok r → r.type = .unorderedIterator ∧
        (((Result.advance · d.generation)^[1] r).iterateNext d.generation).1 =
          .ok (some ⟨2⟩)) ∧
      value.toText d = "7" := by
  intro d value
  have h : d.Reachable := Document.Reachable.empty.afterAll _
  have hids : ∀ id ∈ [NodeId.mk 2, ⟨3⟩, ⟨2⟩], id.index < d.size := by decide
  have hmembers : value.members d = [⟨3⟩, ⟨2⟩] := by decide
  have hstring : d.stringValue ⟨3⟩ = "7" := by decide
  obtain ⟨hshapes, hnodes, -⟩ := result_shapes_agree h
  obtain ⟨-, -, -, htext, -⟩ := hnodes _ hids
  refine ⟨h, hids, hmembers, fun r hr => ?_, ?_⟩
  · obtain ⟨htype, hdelivers⟩ := (hshapes value .any).2.2 r hr
    have hiterator : r.type = .unorderedIterator := htype
    have hnext := hdelivers.iterateNext 1
    rw [hiterator, hmembers] at hnext
    exact ⟨hiterator, hnext⟩
  · rw [htext, hmembers]
    exact hstring

end XPath
