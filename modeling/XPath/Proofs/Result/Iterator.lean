import XPath.Proofs.Result.Materialize
/-! Iterators in use. Whatever is done to the document between the calls, an iterator returns a
prefix of its selection. It ends for good when it has returned all of it, and fails for good from
the first call that meets another generation than that of its selection. -/
namespace XPath
set_option autoImplicit false

variable {d : Document} {r : Result} {value : Value} {requested : ResultType}
  {selection rest : List NodeId} {generation current : Nat} {calls : List IteratorCall}
  {it : NodeIterator} {s : IteratorSession}

/-! ## Single steps -/

namespace NodeIterator

theorem next_cons {id : NodeId} :
    (⟨id :: rest, generation, .active⟩ : NodeIterator).next generation =
      (.ok (some id), ⟨rest, generation, .active⟩) := by
  simp [next]

theorem next_nil : (⟨[], generation, .active⟩ : NodeIterator).next generation =
    (.ok none, ⟨[], generation, .exhausted⟩) := by
  simp [next]

theorem next_of_ne (h : current ≠ generation) :
    (⟨rest, generation, .active⟩ : NodeIterator).next current =
      (.error .stale, ⟨rest, generation, .stale⟩) := by
  simp [next, h]

theorem next_of_exhausted (h : it.state = .exhausted) : it.next current = (.ok none, it) := by
  rw [next, h]

theorem next_of_stale (h : it.state = .stale) : it.next current = (.error .stale, it) := by
  rw [next, h]

end NodeIterator

/-! ## What calls tell of the state -/

/-- How far an iterator over a selection has come, by what its calls have met and returned. -/
inductive NodeIterator.Follows (selection : List NodeId) (generation : Nat)
    (calls : List IteratorCall) : NodeIterator → Prop
  | active {rest : List NodeId} : IteratorCall.returned calls ++ rest = selection →
      (∀ call ∈ calls, call.generation = generation ∧ ∃ id, call.outcome = .ok (some id)) →
      Follows selection generation calls ⟨rest, generation, .active⟩
  | exhausted {it : NodeIterator} : it.state = .exhausted →
      IteratorCall.returned calls = selection → (∃ call ∈ calls, call.outcome = .ok none) →
      (∀ call ∈ calls, call.outcome ≠ .error .stale) → Follows selection generation calls it
  | stale {it : NodeIterator} : it.state = .stale →
      IteratorCall.returned calls <+: selection →
      (∃ call ∈ calls, call.generation ≠ generation) →
      (∀ call ∈ calls, call.outcome ≠ .ok none) → Follows selection generation calls it

theorem returned_concat_some {id : NodeId} :
    IteratorCall.returned (calls ++ [⟨generation, .ok (some id)⟩]) =
      IteratorCall.returned calls ++ [id] := by
  simp [IteratorCall.returned, Except.toOption]

theorem returned_concat_none :
    IteratorCall.returned (calls ++ [⟨generation, .ok none⟩]) = IteratorCall.returned calls := by
  simp [IteratorCall.returned, Except.toOption]

theorem returned_concat_error {e : ResultError} :
    IteratorCall.returned (calls ++ [⟨generation, .error e⟩]) = IteratorCall.returned calls := by
  simp [IteratorCall.returned, Except.toOption]

namespace NodeIterator.Follows

/-- One call keeps an iterator on its selection, whatever generation it meets. -/
theorem next (h : it.Follows selection generation calls) (current : Nat) :
    (it.next current).2.Follows selection generation
      (calls ++ [⟨current, (it.next current).1⟩]) := by
  have hlast : ∀ {call : IteratorCall}, call ∈ calls ++ [call] := by simp
  cases h with
  | @active rest hrest hcalls =>
    have houtcomes : ∀ outcome : Except ResultError (Option NodeId),
        (∀ id, outcome ≠ .ok (some id)) → ∀ call ∈ calls, call.outcome ≠ outcome := by
      intro outcome hne call hcall he
      obtain ⟨-, id, hid⟩ := hcalls call hcall
      exact hne id (he.symm.trans hid)
    by_cases hcurrent : current = generation
    · subst hcurrent
      cases rest with
      | cons id rest =>
        rw [next_cons]
        refine .active (by rw [returned_concat_some, ← hrest]; simp) ?_
        exact List.forall_mem_append.mpr ⟨hcalls, by simp⟩
      | nil =>
        rw [next_nil]
        refine .exhausted rfl (by rw [returned_concat_none, ← hrest]; simp) ⟨_, hlast, rfl⟩ ?_
        exact List.forall_mem_append.mpr ⟨houtcomes _ (by simp), by simp⟩
    · rw [next_of_ne hcurrent]
      refine .stale rfl (by rw [returned_concat_error, ← hrest]; simp) ⟨_, hlast, hcurrent⟩ ?_
      exact List.forall_mem_append.mpr ⟨houtcomes _ (by simp), by simp⟩
  | exhausted hstate hreturned hnone hcalls =>
    rw [next_of_exhausted hstate]
    refine .exhausted hstate (by rw [returned_concat_none, hreturned]) ⟨_, hlast, rfl⟩ ?_
    exact List.forall_mem_append.mpr ⟨hcalls, by simp⟩
  | stale hstate hreturned hother hcalls =>
    rw [next_of_stale hstate]
    obtain ⟨first, hfirst, hgeneration⟩ := hother
    refine .stale hstate (by rwa [returned_concat_error])
      ⟨first, List.mem_append_left _ hfirst, hgeneration⟩ ?_
    exact List.forall_mem_append.mpr ⟨hcalls, by simp⟩

theorem returned_prefix (h : it.Follows selection generation calls) :
    IteratorCall.returned calls <+: selection := by
  cases h with
  | active hrest _ => exact ⟨_, hrest⟩
  | exhausted _ hreturned _ _ => exact hreturned ▸ List.prefix_rfl
  | stale _ hreturned _ _ => exact hreturned

/-- A call fails if the iterator has not ended and a call has met another generation. -/
theorem next_eq_stale_iff (h : it.Follows selection generation calls) :
    (it.next current).1 = .error .stale ↔ (∀ call ∈ calls, call.outcome ≠ .ok none) ∧
      (current ≠ generation ∨ ∃ call ∈ calls, call.generation ≠ generation) := by
  cases h with
  | @active rest hrest hcalls =>
    have hnone : ∀ call ∈ calls, call.outcome ≠ .ok none := by
      intro call hcall he
      obtain ⟨-, id, hid⟩ := hcalls call hcall
      simp [hid] at he
    have hsame : ¬ ∃ call ∈ calls, call.generation ≠ generation :=
      fun ⟨call, hcall, hne⟩ => hne (hcalls call hcall).1
    rw [and_iff_right hnone, or_iff_left hsame]
    by_cases hcurrent : current = generation
    · subst hcurrent
      cases rest <;> simp [next_cons, next_nil]
    · simp [next_of_ne hcurrent, hcurrent]
  | exhausted hstate _ hnone _ =>
    obtain ⟨last, hlast, houtcome⟩ := hnone
    rw [next_of_exhausted hstate]
    exact iff_of_false (by simp) fun hcalls => hcalls.1 last hlast houtcome
  | stale hstate _ hother hcalls =>
    rw [next_of_stale hstate]
    exact iff_of_true rfl ⟨hcalls, Or.inr hother⟩

/-- A call that does not fail returns the member behind those returned before, if there is one. -/
theorem next_of_ne_stale (h : it.Follows selection generation calls)
    (hne : (it.next current).1 ≠ .error .stale) :
    (it.next current).1 = .ok selection[(IteratorCall.returned calls).length]? := by
  cases h with
  | @active rest hrest hcalls =>
    by_cases hcurrent : current = generation
    · subst hcurrent
      cases rest with
      | cons id rest => simp [next_cons, ← hrest]
      | nil => simp [next_nil, ← hrest]
    · exact absurd (by rw [next_of_ne hcurrent]) hne
  | exhausted hstate hreturned _ _ => simp [next_of_exhausted hstate, hreturned]
  | stale hstate _ _ _ => exact absurd (by rw [next_of_stale hstate]) hne

theorem next_of_stale_call (h : it.Follows selection generation calls)
    (hcall : ∃ call ∈ calls, call.outcome = .error .stale) :
    (it.next current).1 = .error .stale := by
  obtain ⟨call, hmem, houtcome⟩ := hcall
  cases h with
  | active _ hcalls =>
    obtain ⟨-, id, hid⟩ := hcalls call hmem
    simp [hid] at houtcome
  | exhausted _ _ _ hcalls => exact absurd houtcome (hcalls call hmem)
  | stale hstate _ _ _ => rw [next_of_stale hstate]

theorem next_of_none_call (h : it.Follows selection generation calls)
    (hcall : ∃ call ∈ calls, call.outcome = .ok none) : (it.next current).1 = .ok none := by
  obtain ⟨call, hmem, houtcome⟩ := hcall
  cases h with
  | active _ hcalls =>
    obtain ⟨-, id, hid⟩ := hcalls call hmem
    simp [hid] at houtcome
  | exhausted hstate _ _ _ => rw [next_of_exhausted hstate]
  | stale _ _ _ hcalls => exact absurd houtcome (hcalls call hmem)

end NodeIterator.Follows

theorem NodeIterator.isInvalid_iff :
    it.isInvalid current ↔ (it.next current).1 = .error .stale := by
  obtain ⟨rest, generation, state⟩ := it
  cases state with
  | active =>
    by_cases hcurrent : current = generation
    · subst hcurrent
      cases rest <;> simp [isInvalid, next]
    · simp [isInvalid, next, hcurrent]
  | exhausted => simp [isInvalid, next]
  | stale => simp [isInvalid, next]

/-! ## Sessions -/

namespace IteratorSession

/-- The result of a session is an iterator that follows the selection. -/
def Follows (s : IteratorSession) (selection : List NodeId) (generation : Nat) : Prop :=
  ∃ it, s.result.payload = .iterator it ∧ it.Follows selection generation s.calls

theorem upcoming_eq (hit : s.result.payload = .iterator it) :
    s.upcoming = (it.next s.document.generation).1 := by
  rw [upcoming, Result.iterateNext, hit]

theorem isInvalid_iff (h : s.Follows selection generation) :
    s.isInvalid ↔ s.upcoming = .error .stale := by
  obtain ⟨it, hit, -⟩ := h
  rw [isInvalid, Result.invalidIteratorState, hit, upcoming_eq hit, NodeIterator.isInvalid_iff]

theorem Follows.step (h : s.Follows selection generation) (action : IteratorAction) :
    (s.step action).Follows selection generation := by
  cases action with
  | edit edit => exact h
  | inquire => exact h
  | advance =>
    obtain ⟨it, hit, hfollows⟩ := h
    refine ⟨(it.next s.document.generation).2, ?_, ?_⟩
    · rw [IteratorSession.step, Result.advance, Result.iterateNext, hit]
    · have hnext := hfollows.next s.document.generation
      rwa [← upcoming_eq hit] at hnext

theorem Follows.run (h : s.Follows selection generation) (actions : List IteratorAction) :
    (s.run actions).Follows selection generation := by
  induction actions generalizing s with
  | nil => exact h
  | cons action rest ih => exact ih (h.step action)

theorem follows_start (hr : r.payload = .iterator (.ofList selection generation)) :
    (start d r).Follows selection generation :=
  ⟨_, hr, .active rfl (by simp [start])⟩

end IteratorSession

/-! ## Evaluated iterators -/

theorem iterator_of_materialize (he : value.materialize d requested = .ok r)
    (hr : r.type.isIterator) :
    ∃ ids, value = .nodes ids ∧ r.payload = .iterator (.ofList (d.inOrder ids) d.generation) := by
  rw [materialize_eq] at he
  split at he
  · cases he
  · next hfits =>
    obtain rfl := Except.ok.inj he
    cases value with
    | nodes ids =>
      refine ⟨ids, rfl, ?_⟩
      cases requested <;> first | rfl | cases hr
    | _ =>
      -- a scalar is never delivered as an iterator
      exfalso
      cases requested with
      | unorderedIterator => exact hfits ⟨by simp [Value.kind], rfl⟩
      | orderedIterator => exact hfits ⟨by simp [Value.kind], rfl⟩
      | _ => cases hr

theorem exists_value_of_evaluate {evaluator : Evaluator} {query : Query} {context : NodeId}
    {resolver : Option Resolver} {bindings : String → Option Value}
    (he : evaluator.evaluate query d context resolver requested bindings = .ok r) :
    ∃ value, query.expr.evaluate (.startingAt d context evaluator.functions bindings
        (resolver <|> evaluator.resolver)) (.on context) = .ok value ∧
      value.materialize d requested = .ok r := by
  simp only [Evaluator.evaluate] at he
  split at he
  · next value hvalue => exact ⟨value, hvalue, he⟩
  · cases he

/-- An iterator result holds the members of an evaluated node-set in document order, each once, and
keeps to them whatever happens to the document. Its calls return them from the first on. A call
fails if none has come to the end and the document has left the generation of the evaluation, now
or at an earlier call. Both endings are for good, and a question for the state foretells the
failure. -/
theorem iterator_follows_selection {evaluator : Evaluator} {query : Query} {context : NodeId}
    {resolver : Option Resolver} {bindings : String → Option Value} (h : d.Reachable)
    (he : evaluator.evaluate query d context resolver requested bindings = .ok r)
    (hr : r.type.isIterator) :
    ∃ ids, query.expr.evaluate (.startingAt d context evaluator.functions bindings
        (resolver <|> evaluator.resolver)) (.on context) = .ok (.nodes ids) ∧
      (d.inOrder ids).Pairwise d.Before ∧
      (∀ id, id ∈ d.inOrder ids ↔ id ∈ ids ∧ id.index < d.size) ∧
      ∀ actions, let s := (IteratorSession.start d r).run actions
        s.returned <+: d.inOrder ids ∧
        (s.upcoming = .error .stale ↔ (∀ call ∈ s.calls, call.outcome ≠ .ok none) ∧
          (s.document.generation ≠ d.generation ∨
            ∃ call ∈ s.calls, call.generation ≠ d.generation)) ∧
        (s.upcoming ≠ .error .stale → s.upcoming = .ok (d.inOrder ids)[s.returned.length]?) ∧
        ((∃ call ∈ s.calls, call.outcome = .error .stale) → s.upcoming = .error .stale) ∧
        ((∃ call ∈ s.calls, call.outcome = .ok none) → s.upcoming = .ok none) ∧
        (s.isInvalid ↔ s.upcoming = .error .stale) := by
  obtain ⟨value, hvalue, hmaterialize⟩ := exists_value_of_evaluate he
  obtain ⟨ids, rfl, hpayload⟩ := iterator_of_materialize hmaterialize hr
  refine ⟨ids, hvalue, h.wellFormed.pairwise_inOrder, fun _ => h.wellFormed.mem_inOrder,
    fun actions => ?_⟩
  have hrun := (IteratorSession.follows_start (d := d) hpayload).run actions
  have hinvalid := IteratorSession.isInvalid_iff hrun
  obtain ⟨it, hit, hfollows⟩ := hrun
  dsimp only
  rw [hinvalid, IteratorSession.upcoming_eq hit]
  exact ⟨hfollows.returned_prefix, hfollows.next_eq_stale_iff, hfollows.next_of_ne_stale,
    hfollows.next_of_stale_call, hfollows.next_of_none_call, Iff.rfl⟩

/-- Of two selected texts the first is returned. The document changes, so that the iterator is
stale; it stays so although the change is undone. -/
theorem iterator_follows_selection_of_change :
    let d := Edit.afterAll .empty [.createElement "a" none, .createText "s", .createText "t",
      .appendChild Document.root ⟨1⟩, .appendChild ⟨1⟩ ⟨2⟩, .appendChild ⟨1⟩ ⟨3⟩]
    let query := Query.mk "node()" (.path .context [.mk .child .node []])
    let r := Result.mk .orderedIterator (.iterator (.ofList [⟨2⟩, ⟨3⟩] d.generation))
    let s := (IteratorSession.start d r).run
      [.advance, .edit (.removeChild ⟨1⟩ ⟨3⟩), .edit (.appendChild ⟨1⟩ ⟨3⟩), .inquire]
    d.Reachable ∧
      Evaluator.core.evaluate query d ⟨1⟩ none .orderedIterator (fun _ => none) = .ok r ∧
      r.type.isIterator ∧ s.returned = [⟨2⟩] ∧ s.upcoming = .error .stale := by
  intro d query r s
  have h : d.Reachable := Document.Reachable.empty.afterAll _
  have he : Evaluator.core.evaluate query d ⟨1⟩ none .orderedIterator (fun _ => none) = .ok r := by
    rfl
  have hreturned : s.returned = [⟨2⟩] := by decide +kernel
  have hcalls : ∀ call ∈ s.calls, call.outcome ≠ .ok none := by decide +kernel
  have hgeneration : s.document.generation ≠ d.generation := by decide +kernel
  obtain ⟨ids, -, -, -, hsession⟩ := iterator_follows_selection h he rfl
  exact ⟨h, he, rfl, hreturned, (hsession _).2.1.mpr ⟨hcalls, Or.inl hgeneration⟩⟩

end XPath
