import Mathlib.Data.List.Nodup
import Mathlib.Logic.Relation
import XPath.Document.Edit
/-! What single changes do to the links. Every change to a node is seen through `node?`; from that
each of the views `kind?`, `parent?`, `children` and `attributes` gets its own equation, so that
later proofs do not look into the store. -/
namespace XPath
set_option autoImplicit false

/-- A chain of operations succeeds only if each of them does. -/
theorem bind_eq_ok {ε α β : Type} {m : Except ε α} {f : α → Except ε β} {b : β}
    (h : (m >>= f) = .ok b) : ∃ a, m = .ok a ∧ f a = .ok b := by
  cases m with
  | error e => cases h
  | ok a => exact ⟨a, rfl, h⟩

theorem bind_eq_ok_iff {ε α β : Type} {m : Except ε α} {f : α → Except ε β} {b : β} :
    (m >>= f) = .ok b ↔ ∃ a, m = .ok a ∧ f a = .ok b := by
  refine ⟨bind_eq_ok, ?_⟩
  rintro ⟨a, rfl, h⟩
  exact h

namespace Document

variable {d : Document} {id x p c : NodeId}

/-! ## Looking nodes up -/

theorem node?_isSome_iff : (d.node? id).isSome ↔ id.index < d.size := by
  simp [node?, size]

theorem node?_eq_none_iff : d.node? id = none ↔ d.size ≤ id.index := by
  simp [node?, size]

theorem mem_ids : id ∈ d.ids ↔ id.index < d.size := by
  constructor
  · intro h
    obtain ⟨n, hn, rfl⟩ := List.mem_map.mp h
    exact List.mem_range.mp hn
  · intro h
    exact List.mem_map.mpr ⟨id.index, List.mem_range.mpr h, rfl⟩

theorem length_ids (d : Document) : d.ids.length = d.size := by simp [ids]

theorem nodup_ids (d : Document) : d.ids.Nodup := by
  exact List.Nodup.map (fun _ _ h => NodeId.mk.inj h) List.nodup_range

theorem lt_size_of_parent? (h : d.parent? c = some p) : c.index < d.size := by
  rw [← node?_isSome_iff]
  cases hc : d.node? c with
  | none => simp [parent?, hc] at h
  | some node => rfl

theorem lt_size_of_mem_children (h : c ∈ d.children p) : p.index < d.size := by
  rw [← node?_isSome_iff]
  cases hp : d.node? p with
  | none => simp [children, hp] at h
  | some node => rfl

theorem lt_size_of_mem_attributes (h : c ∈ d.attributes p) : p.index < d.size := by
  rw [← node?_isSome_iff]
  cases hp : d.node? p with
  | none => simp [attributes, hp] at h
  | some node => rfl

theorem lt_size_of_kind? {kind : NodeKind} (h : d.kind? id = some kind) : id.index < d.size := by
  rw [← node?_isSome_iff]
  cases hid : d.node? id with
  | none => simp [kind?, hid] at h
  | some node => rfl

theorem node_eq_ok_iff {node : Node} : d.node id = .ok node ↔ d.node? id = some node := by
  unfold Document.node
  cases d.node? id <;> simp

/-! ## Updating one node -/

@[simp] theorem size_update (f : Node → Node) : (d.update id f).size = d.size := by
  simp [update, size]

@[simp] theorem size_changed : d.changed.size = d.size := rfl

@[simp] theorem node?_changed : d.changed.node? x = d.node? x := rfl

@[simp] theorem kind?_changed : d.changed.kind? x = d.kind? x := rfl

@[simp] theorem attributes_changed : d.changed.attributes x = d.attributes x := rfl

theorem node?_update (f : Node → Node) :
    (d.update id f).node? x = if x = id then (d.node? x).map f else d.node? x := by
  simp only [node?, update, Array.getElem?_modify]
  by_cases h : x = id
  · subst h; simp
  · have hne : id.index ≠ x.index := fun e => h (by cases x; cases id; cases e; rfl)
    simp [h, hne]

section Kept

/- Each kind of update leaves three of the four views as they are. -/
variable {f : Node → NodeKind} {g : Node → Option NodeId} {s : Node → List NodeId}

theorem kind?_update_of {f : Node → Node} (hf : ∀ node, (f node).kind = node.kind) :
    (d.update id f).kind? x = d.kind? x := by
  unfold kind?
  rw [node?_update]
  split
  · rw [Option.map_map, show Node.kind ∘ f = Node.kind from funext hf]
  · rfl

theorem parent?_update_of {f : Node → Node} (hf : ∀ node, (f node).parent = node.parent) :
    (d.update id f).parent? x = d.parent? x := by
  unfold parent?
  rw [node?_update]
  split
  · cases d.node? x <;> simp [hf]
  · rfl

theorem children_update_of {f : Node → Node} (hf : ∀ node, (f node).children = node.children) :
    (d.update id f).children x = d.children x := by
  unfold children
  rw [node?_update]
  split
  · cases d.node? x <;> simp [hf]
  · rfl

theorem attributes_update_of {f : Node → Node}
    (hf : ∀ node, (f node).attributes = node.attributes) :
    (d.update id f).attributes x = d.attributes x := by
  unfold attributes
  rw [node?_update]
  split
  · cases d.node? x <;> simp [hf]
  · rfl

@[simp] theorem parent?_update_kind :
    (d.update id fun node => { node with kind := f node }).parent? x = d.parent? x :=
  parent?_update_of fun _ => rfl

@[simp] theorem children_update_kind :
    (d.update id fun node => { node with kind := f node }).children x = d.children x :=
  children_update_of fun _ => rfl

@[simp] theorem attributes_update_kind :
    (d.update id fun node => { node with kind := f node }).attributes x = d.attributes x :=
  attributes_update_of fun _ => rfl

@[simp] theorem kind?_update_parent :
    (d.update id fun node => { node with parent := g node }).kind? x = d.kind? x :=
  kind?_update_of fun _ => rfl

@[simp] theorem children_update_parent :
    (d.update id fun node => { node with parent := g node }).children x = d.children x :=
  children_update_of fun _ => rfl

@[simp] theorem attributes_update_parent :
    (d.update id fun node => { node with parent := g node }).attributes x = d.attributes x :=
  attributes_update_of fun _ => rfl

@[simp] theorem kind?_update_children :
    (d.update id fun node => { node with children := s node }).kind? x = d.kind? x :=
  kind?_update_of fun _ => rfl

@[simp] theorem parent?_update_children :
    (d.update id fun node => { node with children := s node }).parent? x = d.parent? x :=
  parent?_update_of fun _ => rfl

@[simp] theorem attributes_update_children :
    (d.update id fun node => { node with children := s node }).attributes x = d.attributes x :=
  attributes_update_of fun _ => rfl

@[simp] theorem kind?_update_attributes :
    (d.update id fun node => { node with attributes := s node }).kind? x = d.kind? x :=
  kind?_update_of fun _ => rfl

@[simp] theorem parent?_update_attributes :
    (d.update id fun node => { node with attributes := s node }).parent? x = d.parent? x :=
  parent?_update_of fun _ => rfl

@[simp] theorem children_update_attributes :
    (d.update id fun node => { node with attributes := s node }).children x = d.children x :=
  children_update_of fun _ => rfl

end Kept

/-! The fourth view changes at the node alone. -/

theorem parent?_update_parent (r : Option NodeId) (h : id.index < d.size) :
    (d.update id fun node => { node with parent := r }).parent? x =
      if x = id then r else d.parent? x := by
  obtain ⟨node, hnode⟩ := Option.isSome_iff_exists.mp (node?_isSome_iff.mpr h)
  unfold parent?
  rw [node?_update]
  split
  · next hx => rw [hx, hnode]; rfl
  · rfl

theorem children_update_children (f : List NodeId → List NodeId) (h : id.index < d.size) :
    (d.update id fun node => { node with children := f node.children }).children x =
      if x = id then f (d.children id) else d.children x := by
  obtain ⟨node, hnode⟩ := Option.isSome_iff_exists.mp (node?_isSome_iff.mpr h)
  unfold children
  rw [node?_update]
  split
  · next hx => rw [hx, hnode]; rfl
  · rfl

theorem attributes_update_attributes (f : List NodeId → List NodeId) (h : id.index < d.size) :
    (d.update id fun node => { node with attributes := f node.attributes }).attributes x =
      if x = id then f (d.attributes id) else d.attributes x := by
  obtain ⟨node, hnode⟩ := Option.isSome_iff_exists.mp (node?_isSome_iff.mpr h)
  unfold attributes
  rw [node?_update]
  split
  · next hx => rw [hx, hnode]; rfl
  · rfl

theorem kind?_update_kind (kind : NodeKind) (h : id.index < d.size) :
    (d.update id fun node => { node with kind := kind }).kind? x =
      if x = id then some kind else d.kind? x := by
  obtain ⟨node, hnode⟩ := Option.isSome_iff_exists.mp (node?_isSome_iff.mpr h)
  unfold kind?
  rw [node?_update]
  split
  · next hx => rw [hx, hnode]; rfl
  · rfl

/-! ## Adding a node -/

variable {kind : NodeKind}

@[simp] theorem size_create : (d.create kind).1.size = d.size + 1 := by simp [create, size]

theorem node?_create :
    (d.create kind).1.node? x = if x.index = d.size then some (.ofKind kind) else d.node? x := by
  simp only [node?, create, size, Array.getElem?_push]
  rfl

theorem kind?_create :
    (d.create kind).1.kind? x = if x.index = d.size then some kind else d.kind? x := by
  unfold kind?
  rw [node?_create]
  split <;> rfl

/-- A new node has no links, just as an unknown one. -/
theorem parent?_create : (d.create kind).1.parent? x = d.parent? x := by
  unfold parent?
  rw [node?_create]
  split
  · next h => rw [node?_eq_none_iff.mpr (Nat.le_of_eq h.symm)]; rfl
  · rfl

theorem children_create : (d.create kind).1.children x = d.children x := by
  unfold children
  rw [node?_create]
  split
  · next h => rw [node?_eq_none_iff.mpr (Nat.le_of_eq h.symm)]; rfl
  · rfl

theorem attributes_create : (d.create kind).1.attributes x = d.attributes x := by
  unfold attributes
  rw [node?_create]
  split
  · next h => rw [node?_eq_none_iff.mpr (Nat.le_of_eq h.symm)]; rfl
  · rfl

end Document
end XPath
