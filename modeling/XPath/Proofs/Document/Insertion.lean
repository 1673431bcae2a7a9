import XPath.Proofs.Document.Generation
/-! What an insertion does, node by node. A node that is inserted leaves the list of its old parent
and enters that of the new one at the place asked for; it keeps all that is below it, and every
other node stays as it is. -/
namespace XPath.Document
set_option autoImplicit false

variable {d d' : Document} {c p x : NodeId} {r : Option NodeId} {l before after : List NodeId}

/-! ## The place in a list -/

/-- Whatever stands first behind the place tells the place. -/
theorem placeBefore_append (hl : (before ++ after).Nodup) :
    placeBefore (before ++ after) c after.head? = before ++ c :: after := by
  cases after with
  | nil => simp [placeBefore]
  | cons s rest =>
    have hs : ∀ x ∈ before, (x != s) = true := by
      intro x hx
      exact bne_iff_ne.mpr ((List.nodup_append.mp hl).2.2 x hx s List.mem_cons_self)
    rw [List.head?_cons, placeBefore, List.takeWhile_append_of_pos hs,
      List.dropWhile_append_of_pos hs]
    simp

theorem exists_append_of_head? (hr : ∀ s, r = some s → s ∈ l) :
    ∃ before after, l = before ++ after ∧ after.head? = r := by
  cases r with
  | none => exact ⟨l, [], by simp, rfl⟩
  | some s =>
    obtain ⟨before, after, rfl⟩ := List.append_of_mem (hr s rfl)
    exact ⟨before, s :: after, rfl, rfl⟩

/-! ## Single nodes -/

theorem node?_attach (hne : c ≠ p) : (d.attach p c r).node? x =
    if x = c then (d.node? c).map fun node => { node with parent := some p }
    else if x = p then
      (d.node? p).map fun node => { node with children := placeBefore node.children c r }
    else d.node? x := by
  rw [attach, node?_update, node?_update]
  by_cases hc : x = c
  · rw [if_pos hc, if_pos hc, hc, if_neg hne]
  · rw [if_neg hc, if_neg hc]
    by_cases hp : x = p
    · rw [if_pos hp, if_pos hp, hp]
    · rw [if_neg hp, if_neg hp]

theorem children_of_node? {node : Node} (hnode : d.node? x = some node) :
    d.children x = node.children := by
  rw [children, hnode]
  rfl

namespace WellFormed

theorem ne_of_isParent (h : d.WellFormed) (hp : d.IsParent p c) : p ≠ c := by
  rintro rfl
  exact h.not_isAncestor_self (.single hp)

theorem node?_detach (h : d.WellFormed) : (d.detach c).node? x =
    if x = c then (d.node? c).map fun node => { node with parent := none }
    else if d.parent? c = some x then
      (d.node? x).map fun node => { node with children := node.children.erase c }
    else d.node? x := by
  cases hc : d.parent? c with
  | none =>
    rw [detach_of_parent?_eq_none hc]
    by_cases hx : x = c
    · rw [if_pos hx, hx]
      -- Taking the parent from a node without one changes nothing.
      cases hnode : d.node? c with
      | none => rfl
      | some node =>
        rw [parent?, hnode, Option.bind_some] at hc
        rw [Option.map_some, ← hc]
    · rw [if_neg hx, if_neg (by simp)]
  | some q =>
    have hqc := h.ne_of_isParent hc
    rw [detach_eq hc, node?_update, node?_update]
    by_cases hx : x = c
    · rw [if_pos hx, if_pos hx, hx, if_neg hqc.symm]
    · rw [if_neg hx, if_neg hx]
      by_cases hq : x = q
      · rw [if_pos hq, if_pos (congrArg some hq.symm)]
        cases hnode : d.node? x with
        | none => rfl
        | some node =>
          have hnodup := h.nodup_children x
          rw [children_of_node? hnode] at hnodup
          rw [Option.map_some, Option.map_some, hnodup.erase_eq_filter]
      · rw [if_neg hq, if_neg fun he => hq (Option.some.inj he).symm]

/-- Everything that moving a child does to the nodes. -/
theorem node?_move (h : d.WellFormed) (hne : c ≠ p) :
    ((d.detach c).attach p c r).changed.node? x =
      if x = c then (d.node? c).map fun node => { node with parent := some p }
      else if x = p then
        (d.node? p).map fun node =>
          { node with children := placeBefore (node.children.erase c) c r }
      else if d.parent? c = some x then
        (d.node? x).map fun node => { node with children := node.children.erase c }
      else d.node? x := by
  rw [node?_changed, node?_attach hne, h.node?_detach, h.node?_detach, h.node?_detach, if_pos rfl,
    if_neg hne.symm, Option.map_map]
  by_cases hc : x = c
  · rw [if_pos hc, if_pos hc]
    rfl
  rw [if_neg hc, if_neg hc, if_neg hc]
  by_cases hp : x = p
  · rw [if_pos hp, if_pos hp]
    by_cases hparent : d.parent? c = some p
    · rw [if_pos hparent, Option.map_map]
      rfl
    · rw [if_neg hparent]
      -- A child of another node is not in the list.
      cases hnode : d.node? p with
      | none => rfl
      | some node =>
        have hmem : c ∉ node.children := by
          rw [← children_of_node? hnode]
          exact fun hmem => hparent (h.isParent_of_mem_children hmem)
        rw [Option.map_some, Option.map_some, List.erase_of_not_mem hmem]
  · rw [if_neg hp, if_neg hp]

end WellFormed

/-! ## Moving a child -/

/-- From `d` to `d'`, the node `c` has become a child of `p`, in front of `r` or at the end, and
nothing else has changed. -/
structure Moved (d d' : Document) (p c : NodeId) (r : Option NodeId) : Prop where
  /-- The child names its new parent and is the same otherwise. -/
  child : d'.node? c = (d.node? c).map fun node => { node with parent := some p }
  /-- The other children of the new parent keep their order, and `r` stands directly behind the
  new one. -/
  newParent : ∃ before after, (d.children p).erase c = before ++ after ∧ after.head? = r ∧
    d'.node? p = (d.node? p).map fun node => { node with children := before ++ c :: after }
  oldParent : ∀ q, d.parent? c = some q → q ≠ p → c ∈ d.children q ∧
    d'.node? q = (d.node? q).map fun node => { node with children := node.children.erase c }
  others : ∀ x, x ≠ c → x ≠ p → d.parent? c ≠ some x → d'.node? x = d.node? x
  /-- The tree below the child has come along as it was. -/
  below : d'.preorder c = d.preorder c ∧ ∀ x, d.IsAncestor c x → d'.node? x = d.node? x
  counted : d'.generation = d.generation + 1

namespace WellFormed

theorem node?_move_of_isAncestor (h : d.WellFormed) (hunder : ¬ d.Under c p)
    (hx : d.IsAncestor c x) : ((d.detach c).attach p c r).changed.node? x = d.node? x := by
  have hne : c ≠ p := fun he => hunder (he ▸ .refl)
  have hxc : x ≠ c := fun he => h.not_isAncestor_self (he ▸ hx)
  have hxp : x ≠ p := fun he => hunder (he ▸ hx.under)
  have hparent : d.parent? c ≠ some x := fun hp => h.not_isAncestor_self (hx.tail hp)
  rw [h.node?_move hne, if_neg hxc, if_neg hxp, if_neg hparent]

theorem moved (h : d.WellFormed) (hcontainer : d.isContainer p) (hinsertable : d.isInsertable c)
    (hunder : ¬ d.Under c p) (hr : ∀ s, r = some s → s ∈ d.children p) (hself : r ≠ some c) :
    d.Moved ((d.detach c).attach p c r).changed p c r := by
  have hne : c ≠ p := fun he => hunder (he ▸ .refl)
  have hnode := fun x => h.node?_move (x := x) (r := r) hne
  have hbelow := fun x => h.node?_move_of_isAncestor (x := x) (r := r) hunder
  have hchild := hnode c
  rw [if_pos rfl] at hchild
  refine ⟨hchild, ?_, fun q hq hqp => ?_, fun x hxc hxp hparent => ?_, ⟨?_, hbelow⟩, by simp⟩
  · have hr' : ∀ s, r = some s → s ∈ (d.children p).erase c := fun s hs =>
      (List.mem_erase_of_ne fun he => hself (hs.trans (congrArg some he))).mpr (hr s hs)
    obtain ⟨before, after, hsplit, rfl⟩ := exists_append_of_head? hr'
    refine ⟨before, after, hsplit, rfl, ?_⟩
    rw [hnode p, if_neg hne.symm, if_pos rfl]
    cases hp : d.node? p with
    | none => rfl
    | some node =>
      have hnodup := (h.nodup_children p).erase c
      rw [hsplit] at hnodup
      rw [children_of_node? hp] at hsplit
      rw [Option.map_some, Option.map_some, hsplit, placeBefore_append hnodup]
  · have hmem := h.mem_children_iff.mpr ⟨hq, isAttribute_eq_false_of_isInsertable hinsertable⟩
    refine ⟨hmem, ?_⟩
    rw [hnode q, if_neg (h.ne_of_isParent hq), if_neg hqp, if_pos hq]
  · rw [hnode x, if_neg hxc, if_neg hxp, if_neg hparent]
  · refine h.preorder_eq_of_under (h.move hcontainer hinsertable hunder) fun y hy => ?_
    rcases under_iff.mp hy with rfl | hy
    · unfold children attributes
      rw [hchild]
      cases d.node? y <;> exact ⟨rfl, rfl⟩
    · unfold children attributes
      rw [hbelow y hy]
      exact ⟨rfl, rfl⟩

/-! ## Putting a child back -/

section Restore

variable (h : d.WellFormed) (hsplit : d.children p = before ++ c :: after)
include h hsplit

theorem nodup_others : c ∉ before ++ after ∧ (before ++ after).Nodup := by
  have hnodup := h.nodup_children p
  rw [hsplit] at hnodup
  exact List.nodup_cons.mp (List.perm_middle.nodup_iff.mp hnodup)

theorem erase_children : (d.children p).erase c = before ++ after := by
  have hbefore : c ∉ before := fun hc =>
    (nodup_others h hsplit).1 (List.mem_append_left _ hc)
  rw [hsplit, List.erase_append_right _ hbefore, List.erase_cons_head]

theorem node?_attach_detach : ((d.detach c).attach p c after.head?).node? x = d.node? x := by
  have hp : d.parent? c = some p := h.isParent_of_mem_children (by simp [hsplit])
  have hne := h.ne_of_isParent hp
  rw [node?_attach hne.symm, h.node?_detach, h.node?_detach, h.node?_detach, if_pos rfl,
    if_neg hne, if_pos hp, Option.map_map, Option.map_map]
  by_cases hc : x = c
  · rw [if_pos hc, hc]
    cases hnode : d.node? c with
    | none => rfl
    | some node =>
      rw [parent?, hnode, Option.bind_some] at hp
      rw [Option.map_some, Function.comp_apply, ← hp]
  rw [if_neg hc, if_neg hc]
  by_cases hxp : x = p
  · rw [if_pos hxp, hxp]
    cases hnode : d.node? p with
    | none => rfl
    | some node =>
      have herase := erase_children h hsplit
      rw [children_of_node? hnode] at herase hsplit
      rw [Option.map_some, Function.comp_apply, herase,
        placeBefore_append (nodup_others h (by rwa [children_of_node? hnode])).2, ← hsplit]
  · rw [if_neg hxp, if_neg fun he => hxp (Option.some.inj (he.symm.trans hp))]

/-- A child that was removed can be put back in front of its next sibling, and all nodes are as they
were. -/
theorem exists_restored : ∃ removed restored, d.removeChild p c = .ok removed ∧
    removed.insertBefore p c after.head? = .ok restored ∧ ∀ x, restored.node? x = d.node? x := by
  have hmem : c ∈ d.children p := by simp [hsplit]
  have hp := h.isParent_of_mem_children hmem
  have hunder : ¬ d.Under c p := fun hcp => h.not_isAncestor_self (.head' hp hcp)
  obtain ⟨hcontainer, hinsertable⟩ := h.of_mem_children p c hmem
  have hremoved := (h.detach (isAttribute_eq_false_of_isInsertable hinsertable)).changed
  have hchildren : (d.detach c).changed.children p = before ++ after := by
    rw [← erase_children h hsplit, (h.nodup_children p).erase_eq_filter]
    exact (children_detach hp (h.parent_lt_size hp)).trans (if_pos rfl)
  have hhead : after.head? ≠ some c := fun he =>
    (nodup_others h hsplit).1 (List.mem_append_right _ (List.mem_of_mem_head? he))
  -- The child has no parent any more, so that the insertion has nothing to detach.
  have hdetached : (d.detach c).changed.detach c = (d.detach c).changed :=
    detach_of_parent?_eq_none parent?_detach_self
  refine ⟨(d.detach c).changed, ((d.detach c).changed.attach p c after.head?).changed,
    (removeChild_eq_ok_iff h).mpr ⟨hmem, rfl⟩,
    (insertBefore_eq_ok_iff hremoved).mpr ⟨⟨?_, ?_, ?_⟩, fun s hs => ?_, ?_⟩,
    fun x => node?_attach_detach h hsplit⟩
  · simpa [isContainer] using hcontainer
  · simpa [isInsertable] using hinsertable
  · intro hcp
    exact hunder (Relation.ReflTransGen.mono (fun _ _ => isParent_of_isParent_detach) _ _ hcp)
  · rw [hchildren]
    exact List.mem_append_right _ (List.mem_of_mem_head? hs)
  · rw [if_neg hhead, hdetached]

end Restore

end WellFormed

/-! ## Insertions that callers can make -/

/-- An insertion succeeds if and only if the new parent takes children, the child is neither the
document nor an attribute nor above its new parent, and the reference is among the children there.
In front of itself a child stays where it is; otherwise it is moved and nothing else changes. So a
child that was removed comes back to its place by an insertion in front of its next sibling. -/
theorem Reachable.insertBefore_exact (h : d.Reachable) (p c : NodeId) (r : Option NodeId) :
    ((∃ d', d.insertBefore p c r = .ok d') ↔
      (p.index < d.size ∧ c.index < d.size) ∧ (d.kind? p = some .document ∨ d.isElement p) ∧
      (d.kind? c ≠ some .document ∧ d.isAttribute c = false) ∧ c ≠ p ∧ ¬ d.IsAncestor c p ∧
      ∀ s, r = some s → s.index < d.size ∧ d.isAttribute s = false ∧ d.parent? s = some p) ∧
    (∀ d', d.insertBefore p c r = .ok d' → if r = some c then d' = d else d.Moved d' p c r) ∧
    ∀ before after, d.children p = before ++ c :: after →
      ∃ removed restored, d.removeChild p c = .ok removed ∧
        removed.insertBefore p c after.head? = .ok restored ∧
        ∀ x, restored.node? x = d.node? x := by
  have hwf := h.wellFormed
  refine ⟨⟨?_, ?_⟩, fun d' he => ?_, fun before after hsplit => hwf.exists_restored hsplit⟩
  · rintro ⟨d', he⟩
    obtain ⟨⟨hcontainer, hinsertable, hunder⟩, hr, -⟩ := (insertBefore_eq_ok_iff hwf).mp he
    have hc := lt_size_of_isInsertable hinsertable
    refine ⟨⟨lt_size_of_isContainer hcontainer, hc⟩, isContainer_iff.mp hcontainer,
      (isInsertable_iff hc).mp hinsertable, fun he => hunder (he ▸ .refl),
      fun ha => hunder ha.under, fun s hs => ?_⟩
    obtain ⟨hparent, hattribute⟩ := hwf.mem_children_iff.mp (hr s hs)
    exact ⟨hparent.lt_size, hattribute, hparent⟩
  · rintro ⟨⟨-, hc⟩, hcontainer, hinsertable, hne, hancestor, hr⟩
    have hunder : ¬ d.Under c p := fun hcp =>
      (under_iff.mp hcp).elim (fun he => hne he.symm) hancestor
    exact ⟨_, (insertBefore_eq_ok_iff hwf).mpr ⟨⟨isContainer_iff.mpr hcontainer,
      (isInsertable_iff hc).mpr hinsertable, hunder⟩,
      fun s hs => hwf.mem_children_iff.mpr ⟨(hr s hs).2.2, (hr s hs).2.1⟩, rfl⟩⟩
  · obtain ⟨⟨hcontainer, hinsertable, hunder⟩, hr, rfl⟩ := (insertBefore_eq_ok_iff hwf).mp he
    by_cases hself : r = some c
    · rw [if_pos hself, if_pos hself]
    · rw [if_neg hself, if_neg hself]
      exact hwf.moved hcontainer hinsertable hunder hr hself

/-- The last of three children moves to the front, a child with an attribute moves under another
one, an element does not get into its own content, and a removed child comes back. -/
theorem insertBefore_exact_of_three_children :
    let d := Edit.afterAll .empty [.createElement "a" none, .createElement "b" none,
      .createElement "b" none, .createText "t", .appendChild root ⟨1⟩, .appendChild ⟨1⟩ ⟨2⟩,
      .appendChild ⟨1⟩ ⟨3⟩, .appendChild ⟨1⟩ ⟨4⟩, .setAttribute ⟨3⟩ "k" none "v"]
    let turned := Edit.afterAll d [.insertBefore ⟨1⟩ ⟨4⟩ (some ⟨2⟩)]
    let nested := Edit.afterAll d [.insertBefore ⟨2⟩ ⟨3⟩ none]
    d.Reachable ∧ d.children ⟨1⟩ = [⟨2⟩, ⟨3⟩, ⟨4⟩] ∧
      (d.Moved turned ⟨1⟩ ⟨4⟩ (some ⟨2⟩) ∧ turned.children ⟨1⟩ = [⟨4⟩, ⟨2⟩, ⟨3⟩]) ∧
      (d.Moved nested ⟨2⟩ ⟨3⟩ none ∧ nested.preorder ⟨3⟩ = [⟨3⟩, ⟨5⟩]) ∧
      (¬ ∃ d', d.insertBefore ⟨3⟩ ⟨1⟩ none = .ok d') ∧
      ∃ removed restored, d.removeChild ⟨1⟩ ⟨3⟩ = .ok removed ∧
        removed.insertBefore ⟨1⟩ ⟨3⟩ (some ⟨4⟩) = .ok restored ∧
        ∀ x, restored.node? x = d.node? x := by
  intro d turned nested
  have h : d.Reachable := Reachable.empty.afterAll _
  have hchildren : d.children ⟨1⟩ = [⟨2⟩, ⟨3⟩, ⟨4⟩] := by decide +kernel
  have hturned : d.insertBefore ⟨1⟩ ⟨4⟩ (some ⟨2⟩) = .ok turned := by decide +kernel
  have hnested : d.insertBefore ⟨2⟩ ⟨3⟩ none = .ok nested := by decide +kernel
  have habove : d.IsAncestor ⟨1⟩ ⟨3⟩ := .single (by decide +kernel : d.parent? ⟨3⟩ = some ⟨1⟩)
  have hmoved := (h.insertBefore_exact ⟨1⟩ ⟨4⟩ (some ⟨2⟩)).2.1 turned hturned
  have hmoved' := (h.insertBefore_exact ⟨2⟩ ⟨3⟩ none).2.1 nested hnested
  refine ⟨h, hchildren, ⟨hmoved, by decide +kernel⟩, ⟨hmoved', ?_⟩, fun hok => ?_,
    (h.insertBefore_exact ⟨1⟩ ⟨3⟩ none).2.2 [⟨2⟩] [⟨4⟩] hchildren⟩
  · rw [hmoved'.below.1]
    decide +kernel
  · obtain ⟨-, -, -, -, hancestor, -⟩ := (h.insertBefore_exact ⟨3⟩ ⟨1⟩ none).1.mp hok
    exact hancestor habove

end XPath.Document
