import XPath.Proofs.Markup.Item
/-! The names in the trees that an XML text describes. Every name has the namespace that the
bindings in scope give it, because each tag keeps it so, and so does everything that an entity
stands for. So this reader meets what imports demand of trees. -/
namespace XPath.Markup
set_option autoImplicit false

/-! ## Bindings -/

section Bindings

variable {bindings own inherited : List Binding} {binding other : Binding}
  {pending : List (QName × String)} {name : QName} {value : String}
  {attributes : List TreeAttribute}

/-- A declaration adds one binding or, like any other attribute, none. -/
theorem declarations_cons_cases (h : declarations ((name, value) :: pending) = some bindings) :
    ∃ more, declarations pending = some more ∧ (bindings = more ∨
      ∃ qualifier, bindings = ⟨qualifier, value⟩ :: more ∧ value ≠ xmlUri ∧
        (qualifier = none ∨ qualifier = some name.localPart)) := by
  obtain ⟨more, hmore, h⟩ := Option.bind_eq_some_iff.mp h
  refine ⟨more, hmore, ?_⟩
  split at h
  · exact .inl (Option.some.inj h).symm
  split at h
  · cases h
  split at h
  · split at h
    · cases h
    split at h
    · exact .inl (Option.some.inj h).symm
    · next hvalue =>
      split at h
      · cases h
      · exact .inr ⟨_, (Option.some.inj h).symm, by simpa using hvalue, .inr rfl⟩
  · split at h
    · cases h
    · next hvalue => exact .inr ⟨_, (Option.some.inj h).symm, by simpa using hvalue, .inl rfl⟩

theorem isProper_of_declarations (h : declarations pending = some bindings)
    (hpending : ∀ attr ∈ pending, attr.1.IsProper) : ∀ binding ∈ bindings, binding.IsProper := by
  induction pending generalizing bindings with
  | nil =>
    obtain rfl := Option.some.inj h
    exact List.forall_mem_nil _
  | cons attr rest ih =>
    obtain ⟨hname, hrest⟩ := List.forall_mem_cons.mp hpending
    obtain ⟨more, hmore, rfl | ⟨qualifier, rfl, hvalue, hqualifier⟩⟩ := declarations_cons_cases h
    · exact ih hmore hrest
    · refine List.forall_mem_cons.mpr ⟨⟨?_, hvalue⟩, ih hmore hrest⟩
      rintro part (rfl : qualifier = some part)
      rcases hqualifier with hnone | hsome
      · cases hnone
      · exact Option.some.inj hsome ▸ hname.1

theorem mem_addBinding (h : binding ∈ addBinding own other) : binding ∈ own ∨ binding = other := by
  unfold addBinding at h
  split at h
  · exact .inl h
  · exact (List.mem_append.mp h).imp_right List.mem_singleton.mp

theorem mem_foldl_addBinding (h : binding ∈ inherited.foldl addBinding own) :
    binding ∈ own ∨ binding ∈ inherited := by
  induction inherited generalizing own with
  | nil => exact .inl h
  | cons other rest ih =>
    obtain h | h := ih h
    · exact (mem_addBinding h).imp_right fun (heq : binding = other) => heq ▸ List.mem_cons_self
    · exact .inr (List.mem_cons_of_mem _ h)

theorem mem_inScope (h : binding ∈ inScope own inherited) :
    binding ∈ own ∨ binding ∈ inherited := by
  unfold inScope at h
  split at h
  · exact .inr h
  · exact mem_foldl_addBinding h

/-- An attribute that is no declaration has a name of its own. -/
theorem resolveAttributes_cons_cases
    (h : resolveAttributes bindings ((name, value) :: pending) = some attributes) :
    ∃ more, resolveAttributes bindings pending = some more ∧ (attributes = more ∨
      ∃ uri, attributes = ⟨name, uri, value⟩ :: more ∧ attributeUri bindings name = some uri ∧
        ∀ attr ∈ more, ¬ (uri = attr.uri ∧ name.localPart = attr.name.localPart)) := by
  obtain ⟨more, hmore, h⟩ := Option.bind_eq_some_iff.mp h
  refine ⟨more, hmore, ?_⟩
  split at h
  · exact .inl (Option.some.inj h).symm
  · obtain ⟨uri, huri, h⟩ := Option.bind_eq_some_iff.mp h
    split at h
    · cases h
    · next hother =>
      refine .inr ⟨uri, (Option.some.inj h).symm, huri, fun attr hattr hsame => hother ?_⟩
      refine List.any_eq_true.mpr ⟨attr, hattr, ?_⟩
      rw [hsame.1, hsame.2, beq_self_eq_true, beq_self_eq_true]
      rfl

/-- What the resolved attributes of an element satisfy. -/
structure ResolvedAttributes (bindings : List Binding) (attributes : List TreeAttribute) :
    Prop where
  isProper : ∀ attr ∈ attributes, attr.name.IsProper
  attributeUri_eq : ∀ attr ∈ attributes, attributeUri bindings attr.name = some attr.uri
  distinct : Distinct attributes

theorem resolvedAttributes (h : resolveAttributes bindings pending = some attributes)
    (hpending : ∀ attr ∈ pending, attr.1.IsProper) : ResolvedAttributes bindings attributes := by
  induction pending generalizing attributes with
  | nil =>
    obtain rfl := Option.some.inj h
    exact ⟨List.forall_mem_nil _, List.forall_mem_nil _, List.Pairwise.nil⟩
  | cons attr rest ih =>
    obtain ⟨hname, hrest⟩ := List.forall_mem_cons.mp hpending
    obtain ⟨more, hmore, rfl | ⟨uri, rfl, huri, hother⟩⟩ := resolveAttributes_cons_cases h
    · exact ih hmore hrest
    · obtain ⟨hproper, huris, hdistinct⟩ := ih hmore hrest
      exact ⟨List.forall_mem_cons.mpr ⟨hname, hproper⟩, List.forall_mem_cons.mpr ⟨huri, huris⟩,
        List.pairwise_cons.mpr ⟨hother, hdistinct⟩⟩

end Bindings

/-! ## Drafts -/

variable {d d' : Draft}

theorem everywhereIn_iff {P : QName → Option String → List Binding → List TreeAttribute → Prop}
    {trees : List Tree} : EverywhereIn P trees ↔ ∀ tree ∈ trees, tree.Everywhere P := by
  induction trees with
  | nil => exact iff_of_true trivial (List.forall_mem_nil _)
  | cons tree rest ih => rw [EverywhereIn, List.forall_mem_cons, ih]

mutual

theorem Tree.Everywhere.imp {P Q : QName → Option String → List Binding → List TreeAttribute → Prop}
    (hPQ : ∀ name uri bindings attributes, P name uri bindings attributes →
      Q name uri bindings attributes) {tree : Tree} (h : tree.Everywhere P) :
    tree.Everywhere Q := by
  cases tree with
  | element name uri bindings attributes children =>
    exact ⟨hPQ _ _ _ _ h.1, everywhereIn_imp hPQ h.2⟩
  | text data => trivial
  | comment data => trivial
  | instruction target data => trivial

theorem everywhereIn_imp {P Q : QName → Option String → List Binding → List TreeAttribute → Prop}
    (hPQ : ∀ name uri bindings attributes, P name uri bindings attributes →
      Q name uri bindings attributes) {trees : List Tree} (h : EverywhereIn P trees) :
    EverywhereIn Q trees := by
  cases trees with
  | nil => trivial
  | cons tree rest => exact ⟨h.1.imp hPQ, everywhereIn_imp hPQ h.2⟩

end

/-- What holds of a tree while it is built. -/
structure Draft.Sound (d : Draft) : Prop where
  path : ∀ element ∈ d.path, Resolved element.name element.uri element.bindings element.attributes
  before : ∀ element ∈ d.path, ∀ tree ∈ element.before, tree.Everywhere Resolved
  content : ∀ tree ∈ d.content, tree.Everywhere Resolved
  pending : ∀ attr ∈ d.pending, attr.1.IsProper

namespace Draft

theorem sound_empty : empty.Sound :=
  ⟨List.forall_mem_nil _, List.forall_mem_nil _, List.forall_mem_nil _, List.forall_mem_nil _⟩

theorem Sound.add (h : d.Sound) (tree : Tree) (htree : tree.Everywhere Resolved) :
    (d.add tree).Sound :=
  ⟨h.path, h.before, List.forall_mem_cons.mpr ⟨htree, h.content⟩, h.pending⟩

theorem Sound.addText (h : d.Sound) (data : List Char) : (d.addText data).Sound := by
  unfold Draft.addText
  dsimp only
  split
  · next before rest hin hcontent =>
    have hrest : ∀ tree ∈ rest, tree.Everywhere Resolved := fun tree hmem =>
      h.content tree (hcontent ▸ List.mem_cons_of_mem _ hmem)
    exact ⟨h.path, h.before, List.forall_mem_cons.mpr ⟨trivial, hrest⟩, h.pending⟩
  · exact ⟨h.path, h.before, List.forall_mem_cons.mpr ⟨trivial, h.content⟩, h.pending⟩

theorem Sound.withReferences (h : d.Sound) (references : Option Nat) :
    Sound { d with references } := ⟨h.path, h.before, h.content, h.pending⟩

/-! ### Tags -/

theorem Sound.isProper_of_bindings (h : d.Sound) : ∀ binding ∈ d.bindings, binding.IsProper := by
  unfold Draft.bindings
  cases hpath : d.path with
  | nil => exact List.forall_mem_nil _
  | cons element rest =>
    exact (h.path element (hpath ▸ List.mem_cons_self)).isProper_of_binding

/-- The element that a start tag makes. -/
theorem Sound.resolved (h : d.Sound) {name : QName} {uri : Option String} {bindings : List Binding}
    {attributes : List TreeAttribute} (hname : name.IsProper)
    (he : d.resolve = some (bindings, attributes)) (huri : elementUri bindings name = some uri) :
    Resolved name uri bindings attributes := by
  obtain ⟨own, hown, he⟩ := Option.bind_eq_some_iff.mp he
  obtain ⟨resolved, hresolved, he⟩ := Option.bind_eq_some_iff.mp he
  obtain ⟨rfl, rfl⟩ := Prod.mk.inj (Option.some.inj he)
  have hbindings : ∀ binding ∈ inScope own d.bindings, binding.IsProper := by
    intro binding hbinding
    obtain hmem | hmem := mem_inScope hbinding
    · exact isProper_of_declarations hown h.pending binding hmem
    · exact h.isProper_of_bindings binding hmem
  obtain ⟨hproper, huris, hdistinct⟩ := resolvedAttributes hresolved h.pending
  exact ⟨hname, huri, hbindings, hproper, huris, hdistinct⟩

theorem Sound.startTag (h : d.Sound) {name : QName} {attributes : List (QName × String)}
    {tagEnd : TagEnd} (hname : name.IsProper) (hattributes : ∀ attr ∈ attributes, attr.1.IsProper)
    (he : d.startTag name attributes tagEnd = some d') : d'.Sound := by
  have hpending : ∀ attr ∈ d.pending ++ attributes, attr.1.IsProper :=
    List.forall_mem_append.mpr ⟨h.pending, hattributes⟩
  have hstart : Sound { d with pending := d.pending ++ attributes, inText := false } :=
    ⟨h.path, h.before, h.content, hpending⟩
  cases tagEnd with
  | missing =>
    obtain ⟨_, -, he⟩ := Option.bind_eq_some_iff.mp he
    exact Option.some.inj he ▸ hstart
  | empty =>
    obtain ⟨⟨bindings, resolved⟩, hresolve, he⟩ := Option.bind_eq_some_iff.mp he
    obtain ⟨uri, huri, he⟩ := Option.bind_eq_some_iff.mp he
    have helement := hstart.resolved hname hresolve huri
    have hadd := hstart.add (.element name uri bindings resolved []) ⟨helement, trivial⟩
    exact Option.some.inj he ▸ ⟨hadd.path, hadd.before, hadd.content, List.forall_mem_nil _⟩
  | opening =>
    obtain ⟨⟨bindings, resolved⟩, hresolve, he⟩ := Option.bind_eq_some_iff.mp he
    obtain ⟨uri, huri, he⟩ := Option.bind_eq_some_iff.mp he
    have helement := hstart.resolved hname hresolve huri
    exact Option.some.inj he ▸ ⟨List.forall_mem_cons.mpr ⟨helement, h.path⟩,
      List.forall_mem_cons.mpr ⟨h.content, h.before⟩, List.forall_mem_nil _,
      List.forall_mem_nil _⟩

theorem Sound.endTag (h : d.Sound) {name : QName} (he : d.endTag name = some d') : d'.Sound := by
  obtain ⟨_, -, he⟩ := Option.bind_eq_some_iff.mp he
  split at he
  · cases he
  · next element path hpath =>
    split at he
    · cases he
    · have hresolved := h.path element (hpath ▸ List.mem_cons_self)
      have hcontent : EverywhereIn Resolved d.content.reverse :=
        everywhereIn_iff.mpr fun tree hmem => h.content tree (List.mem_reverse.mp hmem)
      have hbefore := h.before element (hpath ▸ List.mem_cons_self)
      refine Option.some.inj he ▸ ⟨fun other hmem => ?_, fun other hmem => ?_,
        List.forall_mem_cons.mpr ⟨⟨hresolved, hcontent⟩, hbefore⟩, List.forall_mem_nil _⟩
      · exact h.path other (hpath ▸ List.mem_cons_of_mem _ hmem)
      · exact h.before other (hpath ▸ List.mem_cons_of_mem _ hmem)

end Draft

/-! ## Items -/

/-- Whether all that entities stand for keeps a tree sound. -/
def Expansion.IsSound (expansion : Expansion) : Prop :=
  ∀ (name : List Char) (d d' : Draft), d.Sound → expansion.content name d = some d' → d'.Sound

section Items

variable {expansion : Expansion} {items : List Item} {item : Item}

/-- Attributes keep their names when their values are computed. -/
theorem map_fst_valuesOf {attributes : List WrittenAttribute} {before after : Option Nat}
    {values : List (QName × String)}
    (h : valuesOf expansion attributes before = some (values, after)) :
    values.map Prod.fst = attributes.map WrittenAttribute.name := by
  induction attributes generalizing before after values with
  | nil =>
    obtain ⟨rfl, -⟩ := Prod.mk.inj (Option.some.inj h)
    rfl
  | cons written rest ih =>
    obtain ⟨_, -, h⟩ := Option.bind_eq_some_iff.mp h
    obtain ⟨⟨value, between⟩, -, h⟩ := Option.bind_eq_some_iff.mp h
    obtain ⟨⟨more, final⟩, hmore, h⟩ := Option.bind_eq_some_iff.mp h
    obtain ⟨rfl, -⟩ := Prod.mk.inj (Option.some.inj h)
    rw [List.map_cons, List.map_cons, ih hmore]

theorem Draft.Sound.addRun (h : d.Sound) (final : Bool) (run : List Piece) :
    (d.addRun final run).Sound := by
  unfold Draft.addRun
  split
  · exact h
  · exact h.addText _

theorem Draft.Sound.addPieces (hexpansion : expansion.IsSound) (h : d.Sound) {run : List Piece}
    {pieces : List Piece} (he : d.addPieces expansion run pieces = some d') : d'.Sound := by
  induction pieces generalizing d run with
  | nil => exact Option.some.inj he ▸ h.addRun true run
  | cons piece rest ih =>
    cases piece with
    | plain c => exact ih h he
    | referred c => exact ih h he
    | entity name =>
      obtain ⟨middle, hmiddle, he⟩ := Option.bind_eq_some_iff.mp he
      exact ih (hexpansion name _ middle (h.addRun false run) hmiddle) he

theorem Draft.Sound.addItem (hexpansion : expansion.IsSound) (h : d.Sound)
    (hitem : item.IsProper) (he : d.addItem expansion item = some d') : d'.Sound := by
  cases item with
  | startTag name attributes tagEnd =>
    obtain ⟨⟨values, references⟩, hvalues, he⟩ := Option.bind_eq_some_iff.mp he
    refine (h.withReferences references).startTag hitem.1 (fun attr hattr => ?_) he
    have hname : attr.1 ∈ attributes.map WrittenAttribute.name :=
      map_fst_valuesOf hvalues ▸ List.mem_map_of_mem hattr
    obtain ⟨written, hwritten, heq⟩ := List.mem_map.mp hname
    exact heq ▸ hitem.2 written hwritten
  | endTag name => exact h.endTag he
  | text data =>
    obtain ⟨_, -, he⟩ := Option.bind_eq_some_iff.mp he
    exact h.addPieces hexpansion he
  | verbatim data => exact Option.some.inj he ▸ h.addText _
  | comment data => exact Option.some.inj he ▸ h.add (.comment data) trivial
  | instruction target data => exact Option.some.inj he ▸ h.add (.instruction target data) trivial

theorem Draft.Sound.foldlM_addItem (hexpansion : expansion.IsSound) (h : d.Sound)
    (hitems : AllProper items) (he : items.foldlM (Draft.addItem expansion) d = some d') :
    d'.Sound := by
  induction items generalizing d with
  | nil => exact Option.some.inj he ▸ h
  | cons item rest ih =>
    obtain ⟨hitem, hrest⟩ := List.forall_mem_cons.mp hitems
    rw [List.foldlM_cons] at he
    obtain ⟨middle, hmiddle, he⟩ := Option.bind_eq_some_iff.mp he
    exact ih (h.addItem hexpansion hitem hmiddle) hrest he

theorem allProper_entityItems {value : List Char} (h : entityItems value = some items) :
    AllProper items := by
  unfold entityItems at h
  split at h
  · next found rest hcontent =>
    split at h
    · cases h
    · exact Option.some.inj h ▸ yields_content _ _ _ hcontent
  · cases h

theorem isSound_expansionWithin (entities : List Entity) (depth : Nat) :
    (expansionWithin entities depth).IsSound := by
  induction depth with
  | zero => rintro name d d' - ⟨⟩
  | succ depth ih =>
    intro name d d' h he
    obtain ⟨value, -, he⟩ := Option.bind_eq_some_iff.mp he
    obtain ⟨items, hitems, he⟩ := Option.bind_eq_some_iff.mp he
    obtain ⟨references, -, he⟩ := Option.bind_eq_some_iff.mp he
    obtain ⟨final, hfinal, he⟩ := Option.bind_eq_some_iff.mp he
    have hsound := (h.withReferences references).foldlM_addItem ih
      (allProper_entityItems hitems) hfinal
    exact Option.some.inj he ▸ hsound.withReferences _

end Items

/-! ## Whole texts -/

/-- Every name in a text that is read has the namespace that the bindings in scope give it. -/
theorem everywhereIn_parse {text : String} {trees : List Tree} (h : parse text = some trees) :
    EverywhereIn Resolved trees := by
  obtain ⟨⟨items, entities⟩, hdocument, h⟩ := Option.bind_eq_some_iff.mp h
  obtain ⟨draft, hdraft, h⟩ := Option.bind_eq_some_iff.mp h
  have hitems : AllProper items := by
    unfold XPath.Parser.whole? at hdocument
    split at hdocument
    · next found hfound =>
      obtain rfl := Option.some.inj hdocument
      exact yields_document _ _ _ hfound
    · cases hdocument
  have hsound := Draft.sound_empty.foldlM_addItem (isSound_expansionWithin entities entityDepth)
    hitems hdraft
  unfold Draft.trees at h
  split at h
  · obtain rfl := Option.some.inj h
    exact everywhereIn_iff.mpr fun tree hmem => hsound.content tree (List.mem_reverse.mp hmem)
  · cases h

end XPath.Markup
