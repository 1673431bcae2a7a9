import XPath.Proofs.Document.Relink
/-! What the operations that change a document do, and when they succeed: the checks in terms of
the relations between nodes, and the new links in terms of the old ones. -/
namespace XPath.Document
set_option autoImplicit false

variable {d d' : Document} {p c x id element : NodeId} {r : Option NodeId}

/-- The count of changes is no part of the invariant. -/
theorem WellFormed.changed (h : d.WellFormed) : d.changed.WellFormed :=
  h.of_eq_links (.of_eq fun _ => rfl) (fun _ => rfl) (fun _ => rfl) fun _ => rfl

/-! ## Checks -/

theorem checkInsertion_eq_ok_iff (h : d.WellFormed) :
    d.checkInsertion p c = .ok () ↔ d.isContainer p ∧ d.isInsertable c ∧ ¬ d.Under c p := by
  rw [← h.mem_cons_ancestors]
  unfold checkInsertion Document.node isContainer isInsertable kind?
  cases d.node? p with
  | none => simp [bind, Except.bind]
  | some parent =>
    cases d.node? c with
    | none => simp [bind, Except.bind]
    | some child =>
      simp only [bind, Except.bind, pure, Except.pure, throw, throwThe, MonadExceptOf.throw]
      cases hparent : parent.kind.isContainer <;> simp [hparent]
      split_ifs <;> grind

theorem checkChild_eq_ok_iff (h : d.WellFormed) :
    d.checkChild p c = .ok () ↔ c ∈ d.children p := by
  rw [h.mem_children_iff]
  unfold checkChild Document.node IsParent isAttribute kind? parent?
  cases d.node? c with
  | none => simp [bind, Except.bind]
  | some child =>
    simp [bind, Except.bind, pure, Except.pure, throw, throwThe, MonadExceptOf.throw]

/-! ## Unlinking -/

section Detach

variable (hpc : d.IsParent p c)
include hpc

theorem detach_eq : d.detach c =
    (d.update c fun node => { node with parent := none }).update p fun node =>
      { node with children := node.children.filter (· != c) } := by
  unfold detach
  rw [show d.parent? c = some p from hpc]

theorem kind?_detach : (d.detach c).kind? x = d.kind? x := by
  simp [detach_eq hpc]

theorem attributes_detach : (d.detach c).attributes x = d.attributes x := by
  simp [detach_eq hpc]

theorem reparents_detach : d.Reparents (d.detach c) c none := by
  intro x
  rw [detach_eq hpc, parent?_update_children, parent?_update_parent _ hpc.lt_size]

theorem children_detach (hp : p.index < d.size) :
    (d.detach c).children x =
      if x = p then (d.children p).filter (· != c) else d.children x := by
  rw [detach_eq hpc, children_update_children (List.filter (· != c)) (by simpa using hp)]
  simp

end Detach

theorem detach_of_parent?_eq_none (h : d.parent? c = none) : d.detach c = d := by
  unfold detach
  rw [h]

@[simp] theorem size_detach : (d.detach c).size = d.size := by
  unfold detach
  split <;> simp

theorem parent?_detach_self : (d.detach c).parent? c = none := by
  cases hc : d.parent? c with
  | none => rw [detach_of_parent?_eq_none hc, hc]
  | some p => rw [reparents_detach hc c, if_pos rfl]

theorem WellFormed.detach (h : d.WellFormed) (hc : d.isAttribute c = false) :
    (d.detach c).WellFormed := by
  cases hp : d.parent? c with
  | none => rwa [detach_of_parent?_eq_none hp]
  | some p =>
    refine h.of_removed (.of_eq fun x => kind?_detach hp) (reparents_detach hp) hp
      (fun x => children_detach hp (h.parent_lt_size hp)) fun x => ?_
    have hnotMem : ∀ a ∈ d.attributes p, (a != c) = true := by
      intro a ha
      refine bne_iff_ne.mpr fun hac => ?_
      rw [← hac, h.isAttribute_of_mem_attributes ha] at hc
      cases hc
    rw [attributes_detach hp, List.filter_eq_self.mpr hnotMem]
    split
    · next hx => rw [hx]
    · rfl

/-! ## Linking -/

/-- The document with `c` among the children of `p`, in front of `r` or at the end. -/
def attach (d : Document) (p c : NodeId) (r : Option NodeId) : Document :=
  (d.update p fun node => { node with children := placeBefore node.children c r }).update c
    fun node => { node with parent := some p }

theorem placeBefore_perm (l : List NodeId) : (placeBefore l c r).Perm (c :: l) := by
  cases r with
  | none => exact List.perm_append_singleton c l
  | some s =>
    have hmiddle : (placeBefore l c (some s)).Perm
        (c :: (l.takeWhile (· != s) ++ l.dropWhile (· != s))) := List.perm_middle
    rwa [List.takeWhile_append_dropWhile] at hmiddle

@[simp] theorem kind?_attach : (d.attach p c r).kind? x = d.kind? x := by simp [attach]

@[simp] theorem attributes_attach : (d.attach p c r).attributes x = d.attributes x := by
  simp [attach]

theorem children_attach (hp : p.index < d.size) :
    (d.attach p c r).children x =
      if x = p then placeBefore (d.children p) c r else d.children x := by
  simp [attach, children_update_children (placeBefore · c r) hp]

theorem reparents_attach (hc : c.index < d.size) : d.Reparents (d.attach p c r) c (some p) := by
  intro x
  rw [attach, parent?_update_parent _ (by simpa using hc), parent?_update_children]

theorem lt_size_of_isContainer (h : d.isContainer id) : id.index < d.size := by
  unfold isContainer at h
  cases hk : d.kind? id with
  | none => simp [hk] at h
  | some kind => exact lt_size_of_kind? hk

theorem lt_size_of_isInsertable (h : d.isInsertable id) : id.index < d.size := by
  unfold isInsertable at h
  cases hk : d.kind? id with
  | none => simp [hk] at h
  | some kind => exact lt_size_of_kind? hk

theorem WellFormed.attach (h : d.WellFormed) (hnone : d.parent? c = none)
    (hcontainer : d.isContainer p) (hinsertable : d.isInsertable c) (hunder : ¬ d.Under c p) :
    (d.attach p c r).WellFormed :=
  h.of_child_added (.of_eq fun _ => kind?_attach)
    (reparents_attach (lt_size_of_isInsertable hinsertable))
    (fun _ => children_attach (lt_size_of_isContainer hcontainer)) (fun _ => attributes_attach)
    (placeBefore_perm _) hnone hcontainer hinsertable hunder

theorem insertBefore_eq_ok_iff (h : d.WellFormed) : d.insertBefore p c r = .ok d' ↔
    (d.isContainer p ∧ d.isInsertable c ∧ ¬ d.Under c p) ∧ (∀ s, r = some s → s ∈ d.children p) ∧
      d' = if r = some c then d else ((d.detach c).attach p c r).changed := by
  rw [← checkInsertion_eq_ok_iff h]
  unfold insertBefore attach
  cases d.checkInsertion p c with
  | error e => simp [bind, Except.bind]
  | ok _ =>
    cases r with
    | none =>
      simp [bind, Except.bind, pure, Except.pure, eq_comm]
    | some s =>
      have hchild := checkChild_eq_ok_iff (p := p) (c := s) h
      cases hs : d.checkChild p s with
      | error e => simp [bind, Except.bind, hs, ← hchild]
      | ok _ =>
        simp only [bind, Except.bind, pure, Except.pure, hs, Option.some.injEq, forall_eq',
          ← hchild, true_and]
        split <;> simp [eq_comm]

@[simp] theorem kind?_detach_eq : (d.detach c).kind? x = d.kind? x := by
  cases hc : d.parent? c with
  | none => rw [detach_of_parent?_eq_none hc]
  | some p => exact kind?_detach hc

@[simp] theorem attributes_detach_eq : (d.detach c).attributes x = d.attributes x := by
  cases hc : d.parent? c with
  | none => rw [detach_of_parent?_eq_none hc]
  | some p => exact attributes_detach hc

theorem isParent_of_isParent_detach (h : (d.detach c).IsParent p x) : d.IsParent p x := by
  cases hc : d.parent? c with
  | none => rwa [detach_of_parent?_eq_none hc] at h
  | some q =>
    unfold IsParent at h ⊢
    rw [reparents_detach hc x] at h
    split at h
    · cases h
    · exact h

theorem WellFormed.move (h : d.WellFormed) (hcontainer : d.isContainer p)
    (hinsertable : d.isInsertable c) (hunder : ¬ d.Under c p) :
    ((d.detach c).attach p c r).changed.WellFormed := by
  have hdetached := h.detach (isAttribute_eq_false_of_isInsertable hinsertable)
  have hunder' : ¬ (d.detach c).Under c p := fun hcp =>
    hunder (Relation.ReflTransGen.mono (fun _ _ => isParent_of_isParent_detach) _ _ hcp)
  exact (hdetached.attach parent?_detach_self (by simpa [isContainer] using hcontainer)
    (by simpa [isInsertable] using hinsertable) hunder').changed

theorem removeChild_eq_ok_iff (h : d.WellFormed) :
    d.removeChild p c = .ok d' ↔ c ∈ d.children p ∧ d' = (d.detach c).changed := by
  rw [← checkChild_eq_ok_iff h]
  unfold removeChild Document.node
  cases hp : d.node? p with
  | none =>
    have hnotMem : c ∉ d.children p := by simp [children, hp]
    rw [checkChild_eq_ok_iff h]
    simp [bind, Except.bind, hnotMem]
  | some node =>
    cases hc : d.checkChild p c with
    | error e => simp [bind, Except.bind]
    | ok _ => simp [bind, Except.bind, pure, Except.pure, eq_comm]

/-! ## New nodes -/

section Create

variable {kind : NodeKind}

theorem WellFormed.create (h : d.WellFormed) (hkind : kind ≠ .document) :
    (d.create kind).1.WellFormed :=
  h.of_eq_links (keepsKinds_create hkind) (fun _ => parent?_create) (fun _ => children_create)
    fun _ => attributes_create

theorem kind?_create_self : (d.create kind).1.kind? ⟨d.size⟩ = some kind := by
  rw [kind?_create, if_pos rfl]

theorem parent?_create_self : (d.create kind).1.parent? ⟨d.size⟩ = none := by
  have hnone : d.node? ⟨d.size⟩ = none := node?_eq_none_iff.mpr (Nat.le_refl _)
  rw [parent?_create, parent?, hnone]
  rfl

theorem WellFormed.not_under_create_self (h : d.WellFormed) (hp : p.index < d.size) :
    ¬ (d.create kind).1.Under ⟨d.size⟩ p := by
  intro hunder
  rcases Relation.ReflTransGen.cases_head hunder with rfl | ⟨q, hq, -⟩
  · exact absurd hp (Nat.lt_irrefl _)
  · have hq' : d.IsParent ⟨d.size⟩ q := parent?_create.symm.trans hq
    exact absurd (h.parent_lt_size hq') (Nat.lt_irrefl _)

theorem createChild_eq : (d.createChild p kind).1 =
    ((d.create kind).1.update ⟨d.size⟩ fun node => { node with parent := some p }).update p
      fun node => { node with children := node.children ++ [⟨d.size⟩] } := rfl

theorem createAttribute_eq : (d.createAttribute p kind).1 =
    ((d.create kind).1.update ⟨d.size⟩ fun node => { node with parent := some p }).update p
      fun node => { node with attributes := node.attributes ++ [⟨d.size⟩] } := rfl

theorem WellFormed.createChild (h : d.WellFormed) (hcontainer : d.isContainer p)
    (hdocument : kind ≠ .document) (hattribute : kind.isAttribute = false) :
    (d.createChild p kind).1.WellFormed := by
  have hp := lt_size_of_isContainer hcontainer
  have hkinds : d.KeepsKinds (d.create kind).1 := keepsKinds_create hdocument
  refine (h.create hdocument).of_child_added (c := ⟨d.size⟩) (p := p)
    (l := d.children p ++ [⟨d.size⟩]) (.of_eq fun x => ?_) (fun x => ?_) (fun x => ?_)
    (fun x => ?_) ?_ parent?_create_self (hkinds.isContainer hcontainer) ?_
    (h.not_under_create_self hp)
  · simp [createChild_eq]
  · rw [createChild_eq, parent?_update_children, parent?_update_parent _ (by simp)]
  · have hp' : p.index < ((d.create kind).1.update ⟨d.size⟩ fun node =>
        { node with parent := some p }).size := by simpa using Nat.lt_succ_of_lt hp
    rw [createChild_eq, children_update_children (fun l => l ++ [NodeId.mk d.size]) hp']
    simp [children_create]
  · simp [createChild_eq]
  · rw [children_create]
    exact List.perm_append_singleton _ _
  · simp [isInsertable, kind?_create_self, hdocument, hattribute]

theorem kind?_createAttribute : (d.createAttribute p kind).1.kind? x =
    if x.index = d.size then some kind else d.kind? x := by
  simp [createAttribute_eq, kind?_create]

theorem kind?_createAttribute_self : (d.createAttribute p kind).1.kind? ⟨d.size⟩ = some kind := by
  rw [kind?_createAttribute, if_pos rfl]

theorem WellFormed.kind?_createAttribute_of_mem (h : d.WellFormed) (hx : x ∈ d.attributes element) :
    (d.createAttribute p kind).1.kind? x = d.kind? x := by
  rw [kind?_createAttribute, if_neg (Nat.ne_of_lt (h.isParent_of_mem_attributes hx).lt_size)]

theorem attributes_createAttribute (hp : p.index < d.size) :
    (d.createAttribute p kind).1.attributes x =
      if x = p then d.attributes p ++ [⟨d.size⟩] else d.attributes x := by
  have hp' : p.index < ((d.create kind).1.update ⟨d.size⟩ fun node =>
      { node with parent := some p }).size := by simpa using Nat.lt_succ_of_lt hp
  rw [createAttribute_eq, attributes_update_attributes (fun l => l ++ [NodeId.mk d.size]) hp']
  simp [attributes_create]

theorem WellFormed.createAttribute (h : d.WellFormed) (helement : d.isElement p)
    (hattribute : kind.isAttribute) : (d.createAttribute p kind).1.WellFormed := by
  have hp := lt_size_of_isContainer (isContainer_of_isElement helement)
  have hdocument : kind ≠ .document := by
    rintro rfl
    cases hattribute
  have hkinds : d.KeepsKinds (d.create kind).1 := keepsKinds_create hdocument
  refine (h.create hdocument).of_attribute_added (c := ⟨d.size⟩) (p := p)
    (.of_eq fun x => ?_) (fun x => ?_) (fun x => ?_) (fun x => ?_) parent?_create_self
    (hkinds.isElement helement) ?_
  · rw [kind?_createAttribute, kind?_create]
  · rw [createAttribute_eq, parent?_update_attributes, parent?_update_parent _ (by simp)]
  · simp [createAttribute_eq]
  · rw [attributes_createAttribute hp, attributes_create, attributes_create]
  · simp [Document.isAttribute, kind?_create_self, hattribute]

end Create

/-! ## Attributes -/

section Attributes

variable {name data : String} {uri : Option String} {value : String} {added : Bool}

theorem isElement_of_node? {node : Node} (h : d.node? id = some node) :
    d.isElement id = node.kind.isElement := by
  simp [isElement, kind?, h]

theorem mem_of_sameAttribute? {name : QName} (h : d.sameAttribute? element name uri = some id) :
    id ∈ d.attributes element := List.mem_of_find?_eq_some h

theorem kind?_of_sameAttribute? {name : QName} (h : d.sameAttribute? element name uri = some id) :
    ∃ value, d.kind? id = some (.attribute name uri value) := by
  have hfound := List.find?_some h
  split at hfound
  · next otherName otherUri value hkind =>
    simp only [Bool.and_eq_true, beq_iff_eq] at hfound
    obtain ⟨rfl, rfl⟩ := hfound
    exact ⟨value, hkind⟩
  · cases hfound

theorem kind?_ne_of_sameAttribute? {name : QName} (h : d.sameAttribute? element name uri = none)
    (ha : id ∈ d.attributes element) : d.kind? id ≠ some (.attribute name uri value) := by
  intro hkind
  have hother := List.find?_eq_none.mp h id ha
  simp [hkind] at hother

theorem mem_of_attributeNode? (h : d.attributeNode? element name = some id) :
    id ∈ d.attributes element := List.mem_of_find?_eq_some h

/-- Either an attribute with this name and namespace has its value replaced, or there is none and
it is added. -/
theorem putAttribute_cases (he : d.putAttribute element name uri value = .ok (d', id, added)) :
    d.isElement element ∧
      (added = false ∧ d.sameAttribute? element (.ofText name) uri = some id ∧
          d' = d.update id (fun node => { node with kind := .attribute (.ofText name) uri value }) ∨
        added = true ∧ d.sameAttribute? element (.ofText name) uri = none ∧
          d' = (d.createAttribute element (.attribute (.ofText name) uri value)).1) := by
  unfold putAttribute at he
  obtain ⟨node, hnode, he⟩ := bind_eq_ok he
  rw [isElement_of_node? (node_eq_ok_iff.mp hnode)]
  simp only [bind, Except.bind, pure, Except.pure, throw, throwThe, MonadExceptOf.throw] at he
  cases helement : node.kind.isElement with
  | false => simp [helement] at he
  | true =>
    simp only [helement, Bool.not_true, Bool.false_eq_true, if_false] at he
    refine ⟨rfl, ?_⟩
    cases hsame : d.sameAttribute? element (.ofText name) uri with
    | some other =>
      simp only [hsame, Except.ok.injEq, Prod.mk.injEq] at he
      obtain ⟨rfl, rfl, rfl⟩ := he
      exact Or.inl ⟨rfl, rfl, rfl⟩
    | none =>
      simp only [hsame, Except.ok.injEq, Prod.mk.injEq] at he
      obtain ⟨rfl, -, rfl⟩ := he
      exact Or.inr ⟨rfl, rfl, rfl⟩

/-- Only an attribute that is added counts as a change. -/
theorem setAttribute_cases (he : d.setAttribute element name uri value = .ok (d', id)) :
    d.isElement element ∧
      (d.sameAttribute? element (.ofText name) uri = some id ∧
          d' = d.update id (fun node => { node with kind := .attribute (.ofText name) uri value }) ∨
        d.sameAttribute? element (.ofText name) uri = none ∧
          d' = (d.createAttribute element (.attribute (.ofText name) uri value)).1.changed) := by
  unfold Document.setAttribute at he
  obtain ⟨⟨next, a, added⟩, hput, hresult⟩ := bind_eq_ok he
  obtain ⟨rfl, rfl⟩ := Prod.mk.injEq .. ▸ Except.ok.inj hresult
  obtain ⟨helement, ⟨rfl, hsame, rfl⟩ | ⟨rfl, hsame, rfl⟩⟩ := putAttribute_cases hput
  · exact ⟨helement, Or.inl ⟨hsame, rfl⟩⟩
  · exact ⟨helement, Or.inr ⟨hsame, rfl⟩⟩

/-- An attribute may get another name and value without a change of its place. -/
theorem WellFormed.update_attribute {qname : QName} (h : d.WellFormed)
    (ha : d.isAttribute id) :
    (d.update id fun node => { node with kind := .attribute qname uri value }).WellFormed := by
  obtain ⟨_, _, _, hk⟩ := isAttribute_iff.mp ha
  exact h.of_eq_links (keepsKinds_update_kind hk ⟨rfl, rfl, by simp⟩)
    (fun _ => parent?_update_kind) (fun _ => children_update_kind) fun _ => attributes_update_kind

theorem WellFormed.putAttribute (h : d.WellFormed)
    (he : d.putAttribute element name uri value = .ok (d', id, added)) : d'.WellFormed := by
  obtain ⟨helement, ⟨-, hsame, rfl⟩ | ⟨-, -, rfl⟩⟩ := putAttribute_cases he
  · exact h.update_attribute (h.isAttribute_of_mem_attributes (mem_of_sameAttribute? hsame))
  · exact h.createAttribute helement rfl

/-- The document without the attribute `a` of an element. -/
def detachAttribute (d : Document) (element a : NodeId) : Document :=
  (d.update element fun node =>
    { node with attributes := node.attributes.filter (· != a) }).update a
      fun node => { node with parent := none }

@[simp] theorem kind?_detachAttribute : (d.detachAttribute element c).kind? x = d.kind? x := by
  simp [detachAttribute]

@[simp] theorem children_detachAttribute :
    (d.detachAttribute element c).children x = d.children x := by
  simp [detachAttribute]

theorem attributes_detachAttribute (h : element.index < d.size) :
    (d.detachAttribute element c).attributes x =
      if x = element then (d.attributes element).filter (· != c) else d.attributes x := by
  rw [detachAttribute, attributes_update_parent,
    attributes_update_attributes (List.filter (· != c)) h]

theorem reparents_detachAttribute (h : c.index < d.size) :
    d.Reparents (d.detachAttribute element c) c none := by
  intro x
  rw [detachAttribute, parent?_update_parent _ (by simpa using h), parent?_update_attributes]

/-- The first attribute with the name loses its parent, if there is one. -/
theorem removeAttribute_cases (he : d.removeAttribute element name = .ok (d', r)) :
    (d.attributeNode? element name = none ∧ d' = d) ∨
      ∃ a, d.attributeNode? element name = some a ∧ d' = (d.detachAttribute element a).changed := by
  unfold Document.removeAttribute at he
  obtain ⟨node, -, he⟩ := bind_eq_ok he
  cases ha : d.attributeNode? element name with
  | none =>
    simp only [ha, pure, Except.pure, Except.ok.injEq, Prod.mk.injEq] at he
    exact Or.inl ⟨rfl, he.1.symm⟩
  | some a =>
    simp only [ha, pure, Except.pure, Except.ok.injEq, Prod.mk.injEq] at he
    exact Or.inr ⟨a, rfl, he.1.symm⟩

theorem WellFormed.detachAttribute (h : d.WellFormed) (ha : c ∈ d.attributes element) :
    (d.detachAttribute element c).WellFormed := by
  have hparent := h.isParent_of_mem_attributes ha
  have hlt := h.parent_lt_size hparent
  have hnotMem : c ∉ d.children element := fun hc => by
    simpa [h.isAttribute_of_mem_attributes ha] using h.isAttribute_eq_false_of_mem_children hc
  refine h.of_removed (.of_eq fun x => kind?_detachAttribute)
    (reparents_detachAttribute hparent.lt_size) hparent (fun x => ?_)
    fun x => attributes_detachAttribute hlt
  have hkept : (d.children element).filter (· != c) = d.children element :=
    List.filter_eq_self.mpr fun y hy => bne_iff_ne.mpr fun e => hnotMem (e ▸ hy)
  rw [children_detachAttribute, hkept]
  split
  · next hx => rw [hx]
  · rfl

/-! ## Character data -/

theorem sameSort_of_withData? {kind kind' : NodeKind} (h : kind.withData? data = some kind') :
    kind.SameSort kind' := by
  cases kind <;> simp only [NodeKind.withData?, Option.some.injEq, reduceCtorEq] at h <;>
    (subst h; exact ⟨rfl, rfl, by simp⟩)

theorem setText_cases (he : d.setText id data = .ok d') :
    ∃ kind kind', d.kind? id = some kind ∧ kind.withData? data = some kind' ∧
      d' = d.update id fun node => { node with kind := kind' } := by
  unfold Document.setText at he
  obtain ⟨node, hnode, he⟩ := bind_eq_ok he
  rw [node_eq_ok_iff] at hnode
  cases hdata : node.kind.withData? data with
  | none => simp [hdata, throw, throwThe, MonadExceptOf.throw] at he
  | some kind =>
    simp only [hdata, pure, Except.pure, Except.ok.injEq] at he
    exact ⟨node.kind, kind, by simp [kind?, hnode], hdata, he.symm⟩

theorem WellFormed.setData {kind kind' : NodeKind} (h : d.WellFormed)
    (hk : d.kind? id = some kind) (hdata : kind.withData? data = some kind') :
    (d.update id fun node => { node with kind := kind' }).WellFormed :=
  h.of_eq_links (keepsKinds_update_kind hk (sameSort_of_withData? hdata))
    (fun _ => parent?_update_kind) (fun _ => children_update_kind) fun _ => attributes_update_kind

end Attributes

end XPath.Document
