import XPath.Expr.Everywhere
import XPath.Proofs.Document.Isomorphism
import XPath.Proofs.Eval.Outcome
/-! Evaluation on isomorphic trees. Every function that looks at nodes looks at the content and the
links of one tree only, so that an isomorphism takes what it finds in one tree to what it finds in
the other. -/
namespace XPath
set_option autoImplicit false

open Document

variable {scope scope' : Scope} {focus : Focus} {f : NodeId → NodeId} {x x' : NodeId}
  {ids ids' : List NodeId} {v v' w w' u u' r r' : Value}

/-- Scopes on isomorphic trees with the same functions and the same resolver. -/
structure Scope.Iso (scope scope' : Scope) (f : NodeId → NodeId) : Prop where
  wellFormed : scope.document.WellFormed
  wellFormed' : scope'.document.WellFormed
  root_lt_size : scope.root.index < scope.document.size
  tree : scope.document.TreeIso scope'.document scope.root scope'.root f
  functions : scope'.functions = scope.functions
  resolver : scope'.resolver = scope.resolver

/-- `x'` is the image of a node of the scope's tree. -/
def Scope.Image (scope : Scope) (f : NodeId → NodeId) (x x' : NodeId) : Prop :=
  x' = f x ∧ x ∈ scope.document.tree scope.root

/-- Lists of nodes that correspond to each other. -/
abbrev Scope.Images (scope : Scope) (f : NodeId → NodeId) : List NodeId → List NodeId → Prop :=
  List.Forall₂ (scope.Image f)

/-- Foci on corresponding nodes, in the same place among as many. -/
structure Scope.FocusImage (scope : Scope) (f : NodeId → NodeId) (focus focus' : Focus) : Prop where
  node : scope.Image f focus.node focus'.node
  position : focus.position = focus'.position
  size : focus.size = focus'.size

theorem images_iff : scope.Images f ids ids' ↔
    ids' = ids.map f ∧ ∀ x ∈ ids, x ∈ scope.document.tree scope.root := by
  constructor
  · intro h
    induction h with
    | nil => simp
    | cons hx _ ih =>
      exact ⟨by rw [List.map_cons, ih.1, hx.1], List.forall_mem_cons.mpr ⟨hx.2, ih.2⟩⟩
  · rintro ⟨rfl, h⟩
    exact List.forall₂_map_right_iff.mpr (List.forall₂_same.mpr fun x hx => ⟨rfl, h x hx⟩)

namespace Scope.Iso

variable (hs : scope.Iso scope' f)
include hs

/-! ## Lists of nodes -/

theorem stringValue (hx : scope.Image f x x') :
    scope.document.stringValue x = scope'.document.stringValue x' := by
  rw [hx.1, hs.tree.stringValue hs.wellFormed hs.wellFormed' hx.2]

theorem inOrder (hids : scope.Images f ids ids') :
    scope.Images f (scope.document.inOrder ids) (scope'.document.inOrder ids') := by
  obtain ⟨rfl, hmem⟩ := images_iff.mp hids
  refine images_iff.mpr ⟨?_, fun x hx => hmem x (hs.wellFormed.mem_inOrder.mp hx).1⟩
  exact hs.tree.inOrder hs.wellFormed hs.wellFormed' hs.root_lt_size hmem

/-- What the first member of a list says. -/
theorem first {α : Type} {say say' : NodeId → α} (hids : scope.Images f ids ids')
    (hsay : ∀ x x', scope.Image f x x' → say x = say' x') :
    (scope.document.first? ids).map say = (scope'.document.first? ids').map say' := by
  obtain ⟨rfl, hmem⟩ := images_iff.mp hids
  rw [hs.tree.first? hs.wellFormed hs.wellFormed' hs.root_lt_size hmem, Option.map_map]
  refine Option.map_congr fun x hx => hsay x (f x) ⟨rfl, hmem x ?_⟩
  simpa using List.find?_some hx

/-! ## Values -/

theorem firstText (hids : scope.Images f ids ids') :
    Value.firstText scope.document ids = Value.firstText scope'.document ids' := by
  unfold Value.firstText
  rw [hs.first hids fun x x' hx => hs.stringValue hx]

theorem toText (hv : v.Related (scope.Images f) v') :
    v.toText scope.document = v'.toText scope'.document := by
  cases hv with
  | nodes hids => exact hs.firstText hids
  | string h => exact h
  | number h => exact congrArg Number.toText h
  | boolean h => rw [h]; rfl

theorem toNumber (hv : v.Related (scope.Images f) v') :
    v.toNumber scope.document = v'.toNumber scope'.document := by
  cases hv with
  | nodes hids => exact congrArg Number.parse (hs.firstText hids)
  | string h => exact congrArg Number.parse h
  | number h => exact h
  | boolean h => exact congrArg Number.ofBool h

theorem toScalar (hv : v.Related (scope.Images f) v') :
    v.toScalar scope.document = v'.toScalar scope'.document := by
  cases hv with
  | nodes hids => exact congrArg Scalar.string (hs.firstText hids)
  | string h => exact congrArg Scalar.string h
  | number h => exact congrArg Scalar.number h
  | boolean h => exact congrArg Scalar.boolean h

theorem stringValues (hids : scope.Images f ids ids') :
    ids.map scope.document.stringValue = ids'.map scope'.document.stringValue := by
  induction hids with
  | nil => rfl
  | cons hx _ ih => rw [List.map_cons, List.map_cons, ih, hs.stringValue hx]

end Scope.Iso

theorem truth_eq (hv : v.Related (scope.Images f) v') : v.truth = v'.truth := by
  cases hv with
  | nodes hids => cases hids <;> rfl
  | string h => rw [h]
  | number h => rw [h]
  | boolean h => rw [h]

theorem isBoolean_eq (hv : v.Related (scope.Images f) v') : v.isBoolean = v'.isBoolean := by
  cases hv <;> rfl

theorem selects_eq (hv : v.Related (scope.Images f) v') (position : Nat) :
    v.selects position = v'.selects position := by
  cases hv with
  | nodes hids => exact truth_eq (.nodes hids)
  | string h => rw [h]
  | number h => rw [h]
  | boolean h => rw [h]

theorem sameOutcome_toNodeSet (hv : v.Related (scope.Images f) v') (purpose : String) :
    SameOutcome (scope.Images f) (v.toNodeSet purpose) (v'.toNodeSet purpose) := by
  cases hv with
  | nodes hids => exact .ok hids
  | string h => exact .error _
  | number h => exact .error _
  | boolean h => exact .error _

namespace Scope.Iso

variable (hs : scope.Iso scope' f)
include hs

/-! ## Operators -/

theorem scalars (hv : v.Related (scope.Images f) v') (withBoolean : Bool) :
    v.scalars scope.document withBoolean = v'.scalars scope'.document withBoolean := by
  cases hv with
  | nodes hids =>
    cases withBoolean with
    | true => exact congrArg (fun b => [Scalar.boolean b]) (truth_eq (.nodes hids))
    | false =>
      have htexts := congrArg (List.map Scalar.string) (hs.stringValues hids)
      rwa [List.map_map, List.map_map] at htexts
  | string h => rw [h]; rfl
  | number h => rw [h]; rfl
  | boolean h => rw [h]; rfl

theorem compare (hv : v.Related (scope.Images f) v') (hw : w.Related (scope.Images f) w')
    (comparison : Comparison) :
    v.compare scope.document comparison w = v'.compare scope'.document comparison w' := by
  unfold Value.compare
  rw [isBoolean_eq hv, isBoolean_eq hw, hs.scalars hv, hs.scalars hw]

omit hs in
theorem shortcut?_eq (hv : v.Related (scope.Images f) v') (op : BinaryOp) :
    op.shortcut? v = op.shortcut? v' := by
  cases op with
  | or => rw [BinaryOp.shortcut?, BinaryOp.shortcut?, truth_eq hv]
  | and => rw [BinaryOp.shortcut?, BinaryOp.shortcut?, truth_eq hv]
  | compare comparison => rfl
  | arith arithmetic => rfl
  | union => rfl

theorem apply (hv : v.Related (scope.Images f) v') (hw : w.Related (scope.Images f) w')
    (op : BinaryOp) : SameOutcome (Value.Related (scope.Images f))
      (op.apply scope.document v w) (op.apply scope'.document v' w') := by
  cases op with
  | or => exact .ok (.boolean (by rw [truth_eq hv, truth_eq hw]))
  | and => exact .ok (.boolean (by rw [truth_eq hv, truth_eq hw]))
  | compare comparison => exact .ok (.boolean (hs.compare hv hw comparison))
  | arith arithmetic => exact .ok (.number (by rw [hs.toNumber hv, hs.toNumber hw]))
  | union =>
    refine (sameOutcome_toNodeSet hv _).bind fun first first' hfirst =>
      (sameOutcome_toNodeSet hw _).bind fun second second' hsecond => ?_
    exact .ok (.nodes (hs.inOrder (List.rel_append hfirst hsecond)))

/-! ## Node tests -/

theorem passes (hx : x ∈ scope.document.tree scope.root) (axis : Axis)
    (qualification : Qualification) (test : NodeTest) :
    test.passes scope'.document axis qualification (f x) =
      test.passes scope.document axis qualification x := by
  have hprincipal : NodeTest.isPrincipal scope'.document axis (f x) =
      NodeTest.isPrincipal scope.document axis x := by
    unfold NodeTest.isPrincipal
    rw [hs.tree.isElement hx, hs.tree.isAttribute hx]
  have hlocal : ∀ localPart, NodeTest.hasLocalPart scope'.document (f x) localPart =
      NodeTest.hasLocalPart scope.document x localPart := by
    intro localPart
    rw [NodeTest.hasLocalPart, NodeTest.hasLocalPart, hs.tree.name? hx]
  have hadmits : qualification.admits scope'.document (f x) =
      qualification.admits scope.document x := by
    cases qualification with
    | any => rfl
    | uri uri => rw [Qualification.admits, Qualification.admits, hs.tree.uri? hx]
    | written qualifier => rw [Qualification.admits, Qualification.admits, hs.tree.name? hx]
  unfold NodeTest.passes
  rw [hprincipal, hadmits, hs.tree.kind? x hx]
  simp only [hlocal, funext hlocal]

/-- The candidates of a step. -/
theorem candidates (hx : scope.Image f x x') (axis : Axis) (qualification : Qualification)
    (test : NodeTest) :
    scope.Images f
      ((axis.nodes scope.document x).filter (test.passes scope.document axis qualification))
      ((axis.nodes scope'.document x').filter
        (test.passes scope'.document axis qualification)) := by
  obtain ⟨rfl, hx⟩ := hx
  have hmem : ∀ y ∈ axis.nodes scope.document x, y ∈ scope.document.tree scope.root :=
    fun y hy => hs.wellFormed.mem_tree_of_mem_axis hx hy
  rw [hs.tree.axis hs.wellFormed hs.wellFormed' hx]
  refine images_iff.mpr ⟨?_, fun y hy => hmem y (List.mem_of_mem_filter hy)⟩
  exact filter_map_eq fun y hy => hs.passes (hmem y hy) axis qualification test

/-! ## Core functions -/

theorem isIdentifiedBy (hx : x ∈ scope.document.tree scope.root) (tokens : List (List Char)) :
    scope'.document.isIdentifiedBy tokens (f x) = scope.document.isIdentifiedBy tokens x := by
  unfold Document.isIdentifiedBy
  rw [hs.tree.isElement hx, hs.tree.attributes x hx]
  refine congrArg (_ && ·) (any_map_eq fun a ha => ?_)
  have ha' := hs.wellFormed.mem_tree_of_mem_attributes hx ha
  rw [Document.isIdentifier, Document.isIdentifier, hs.tree.name? ha',
    hs.tree.stringValue hs.wellFormed hs.wellFormed' ha']

theorem identified (texts : List String) :
    scope.Images f (scope.document.identified scope.root texts)
      (scope'.document.identified scope'.root texts) := by
  have hmem : ∀ y ∈ scope.document.subtree scope.root, y ∈ scope.document.tree scope.root :=
    fun y hy => hs.wellFormed.mem_tree_of_mem_subtree rfl hy
  unfold Document.identified
  rw [← hs.tree.context, hs.tree.subtree hs.wellFormed hs.wellFormed' rfl]
  refine images_iff.mpr ⟨?_, fun y hy => hmem y (List.mem_of_mem_filter hy)⟩
  exact filter_map_eq fun y hy => hs.isIdentifiedBy (hmem y hy) _

theorem declaredLanguage? (hx : x ∈ scope.document.tree scope.root) :
    scope'.document.declaredLanguage? (f x) = scope.document.declaredLanguage? x := by
  have hmem : ∀ a ∈ scope.document.attributes x, a ∈ scope.document.tree scope.root :=
    fun a ha => hs.wellFormed.mem_tree_of_mem_attributes hx ha
  unfold Document.declaredLanguage?
  rw [hs.tree.attributes x hx, find?_map_eq fun a ha => by rw [hs.tree.name? (hmem a ha)],
    Option.map_map]
  refine Option.map_congr fun a ha => (hs.stringValue ⟨rfl, hmem a ?_⟩).symm
  exact List.mem_of_find?_eq_some ha

theorem language? (hx : scope.Image f x x') :
    scope.document.language? x = scope'.document.language? x' := by
  obtain ⟨rfl, hx⟩ := hx
  have hmem : ∀ y ∈ x :: scope.document.ancestors x, y ∈ scope.document.tree scope.root :=
    List.forall_mem_cons.mpr ⟨hx, fun y hy => hs.wellFormed.mem_tree_of_mem_ancestors hx hy⟩
  unfold Document.language?
  rw [hs.tree.isElement hx, hs.tree.ancestors hs.wellFormed hs.wellFormed' hx]
  split
  · rw [← List.map_cons]
    exact (findSome?_map_eq fun y hy => hs.declaredLanguage? (hmem y hy)).symm
  · refine (findSome?_map_eq fun y hy => hs.declaredLanguage? (hmem y ?_)).symm
    exact List.mem_cons_of_mem x hy

theorem localNameOf (hx : scope.Image f x x') : CoreFunction.localNameOf scope.document x =
    CoreFunction.localNameOf scope'.document x' := by
  rw [CoreFunction.localNameOf, CoreFunction.localNameOf, hx.1, hs.tree.name? hx.2]

theorem namespaceUriOf (hx : scope.Image f x x') : CoreFunction.namespaceUriOf scope.document x =
    CoreFunction.namespaceUriOf scope'.document x' := by
  rw [CoreFunction.namespaceUriOf, CoreFunction.namespaceUriOf, hx.1, hs.tree.uri? hx.2]

theorem qualifiedNameOf (hx : scope.Image f x x') : CoreFunction.qualifiedNameOf scope.document x =
    CoreFunction.qualifiedNameOf scope'.document x' := by
  rw [CoreFunction.qualifiedNameOf, CoreFunction.qualifiedNameOf, hx.1, hs.tree.name? hx.2]

omit hs in
theorem sameOutcome_nodeSetArgument (hv : v.Related (scope.Images f) v')
    (function : CoreFunction) :
    SameOutcome (scope.Images f) (function.nodeSetArgument v) (function.nodeSetArgument v') := by
  cases hv with
  | nodes hids => exact .ok hids
  | string h => exact .error _
  | number h => exact .error _
  | boolean h => exact .error _

theorem ofFirst (hv : v.Related (scope.Images f) v') (function : CoreFunction)
    {say say' : NodeId → String} (hsay : ∀ x x', scope.Image f x x' → say x = say' x') :
    SameOutcome (Value.Related (scope.Images f)) (function.ofFirst scope.document say v)
      (function.ofFirst scope'.document say' v') := by
  refine (sameOutcome_nodeSetArgument hv function).bind fun ids ids' hids => ?_
  exact .ok (.string (by rw [hs.first hids hsay]))

theorem sumOf (hids : scope.Images f ids ids') :
    CoreFunction.sumOf scope.document ids = CoreFunction.sumOf scope'.document ids' := by
  have hfold : ∀ (d : Document) (ids : List NodeId), CoreFunction.sumOf d ids =
      (ids.map d.stringValue).foldl (fun total text => total.add (.parse text)) .negativeZero :=
    fun d ids => by rw [List.foldl_map, CoreFunction.sumOf]
  rw [hfold, hfold, hs.stringValues hids]

/-! ## Application, by the number of arguments -/

omit hs in
theorem apply_id_cons_cons {args : List Value} :
    CoreFunction.id.apply scope focus (v :: w :: args) =
      .error (.wrongArity "id" (.exactly 1) (v :: w :: args).length) := by
  cases v <;> rfl

theorem concat {args args' : List Value}
    (hargs : List.Forall₂ (Value.Related (scope.Images f)) args args') :
    String.join (args.map (Value.toText scope.document)) =
      String.join (args'.map (Value.toText scope'.document)) := by
  congr 1
  induction hargs with
  | nil => rfl
  | cons hv _ ih => rw [List.map_cons, List.map_cons, hs.toText hv, ih]

section Apply

variable (function : CoreFunction) {focus focus' : Focus} {args args' : List Value}
  (hfocus : scope.FocusImage f focus focus')
  (hv : v.Related (scope.Images f) v') (hw : w.Related (scope.Images f) w')
  (hu : u.Related (scope.Images f) u') (hr : r.Related (scope.Images f) r')
  (hargs : List.Forall₂ (Value.Related (scope.Images f)) args args')
include hfocus

theorem apply_nil : SameOutcome (Value.Related (scope.Images f))
    (function.apply scope focus []) (function.apply scope' focus' []) := by
  cases function with
  | last => exact .ok (.number (congrArg Number.ofNat hfocus.size))
  | position => exact .ok (.number (congrArg Number.ofNat hfocus.position))
  | localName => exact .ok (.string (hs.localNameOf hfocus.node))
  | namespaceUri => exact .ok (.string (hs.namespaceUriOf hfocus.node))
  | qualifiedName => exact .ok (.string (hs.qualifiedNameOf hfocus.node))
  | string => exact .ok (.string (hs.stringValue hfocus.node))
  | stringLength => exact .ok (.number (by rw [hs.stringValue hfocus.node]))
  | normalizeSpace => exact .ok (.string (by rw [hs.stringValue hfocus.node]))
  | truth => exact .ok (.boolean rfl)
  | falsehood => exact .ok (.boolean rfl)
  | number => exact .ok (.number (congrArg Number.parse (hs.stringValue hfocus.node)))
  | _ => exact .error _

include hv

theorem apply_one : SameOutcome (Value.Related (scope.Images f))
    (function.apply scope focus [v]) (function.apply scope' focus' [v']) := by
  cases function with
  | count =>
    refine (sameOutcome_nodeSetArgument hv .count).bind fun ids ids' hids => ?_
    exact .ok (.number (congrArg Number.ofNat hids.length_eq))
  | id =>
    cases hv with
    | nodes hids =>
      refine .ok (.nodes ?_)
      rw [hs.stringValues hids]
      exact hs.identified _
    | string h => subst h; exact .ok (.nodes (hs.identified _))
    | number h => subst h; exact .ok (.nodes (hs.identified _))
    | boolean h => subst h; exact .ok (.nodes (hs.identified _))
  | localName => exact hs.ofFirst hv .localName fun x x' hx => hs.localNameOf hx
  | namespaceUri => exact hs.ofFirst hv .namespaceUri fun x x' hx => hs.namespaceUriOf hx
  | qualifiedName => exact hs.ofFirst hv .qualifiedName fun x x' hx => hs.qualifiedNameOf hx
  | string => exact .ok (.string (hs.toText hv))
  | stringLength => exact .ok (.number (by rw [hs.toText hv]))
  | normalizeSpace => exact .ok (.string (by rw [hs.toText hv]))
  | boolean => exact .ok (.boolean (truth_eq hv))
  | negation => exact .ok (.boolean (congrArg Bool.not (truth_eq hv)))
  | lang => exact .ok (.boolean (by rw [hs.language? hfocus.node, hs.toText hv]))
  | number => exact .ok (.number (hs.toNumber hv))
  | sum =>
    refine (sameOutcome_nodeSetArgument hv .sum).bind fun ids ids' hids => ?_
    exact .ok (.number (hs.sumOf hids))
  | floor => exact .ok (.number (congrArg Number.floor (hs.toNumber hv)))
  | ceiling => exact .ok (.number (congrArg Number.ceiling (hs.toNumber hv)))
  | round => exact .ok (.number (congrArg Number.round (hs.toNumber hv)))
  | _ => exact .error _

include hw
omit hfocus

theorem apply_two : SameOutcome (Value.Related (scope.Images f))
    (function.apply scope focus [v, w]) (function.apply scope' focus' [v', w']) := by
  cases function with
  | id => rw [apply_id_cons_cons, apply_id_cons_cons]; exact .error _
  | concat => exact .ok (.string (hs.concat (.cons hv (.cons hw .nil))))
  | startsWith => exact .ok (.boolean (by rw [hs.toText hv, hs.toText hw]))
  | contains => exact .ok (.boolean (by rw [hs.toText hv, hs.toText hw]))
  | substringBefore => exact .ok (.string (by rw [hs.toText hv, hs.toText hw]))
  | substringAfter => exact .ok (.string (by rw [hs.toText hv, hs.toText hw]))
  | substring => exact .ok (.string (by rw [hs.toText hv, hs.toNumber hw]))
  | _ => exact .error _

include hu

theorem apply_three : SameOutcome (Value.Related (scope.Images f))
    (function.apply scope focus [v, w, u]) (function.apply scope' focus' [v', w', u']) := by
  cases function with
  | id => rw [apply_id_cons_cons, apply_id_cons_cons]; exact .error _
  | concat => exact .ok (.string (hs.concat (.cons hv (.cons hw (.cons hu .nil)))))
  | substring => exact .ok (.string (by rw [hs.toText hv, hs.toNumber hw, hs.toNumber hu]))
  | translate => exact .ok (.string (by rw [hs.toText hv, hs.toText hw, hs.toText hu]))
  | _ => exact .error _

include hr hargs

/-- More arguments than three are for `concat` only. -/
theorem apply_more : SameOutcome (Value.Related (scope.Images f))
    (function.apply scope focus (v :: w :: u :: r :: args))
    (function.apply scope' focus' (v' :: w' :: u' :: r' :: args')) := by
  have hlength : (v :: w :: u :: r :: args).length = (v' :: w' :: u' :: r' :: args').length := by
    simp [hargs.length_eq]
  cases function with
  | id => rw [apply_id_cons_cons, apply_id_cons_cons, hlength]; exact .error _
  | concat => exact .ok (.string (hs.concat (.cons hv (.cons hw (.cons hu (.cons hr hargs))))))
  | _ => exact .of_error (congrArg (EvalError.wrongArity _ _) hlength)

end Apply

theorem apply_core (function : CoreFunction) {focus focus' : Focus} {args args' : List Value}
    (hfocus : scope.FocusImage f focus focus')
    (hargs : List.Forall₂ (Value.Related (scope.Images f)) args args') :
    SameOutcome (Value.Related (scope.Images f))
      (function.apply scope focus args) (function.apply scope' focus' args') := by
  rcases hargs with _ | ⟨hv, _ | ⟨hw, _ | ⟨hu, _ | ⟨hr, hargs⟩⟩⟩⟩
  · exact hs.apply_nil function hfocus
  · exact hs.apply_one function hfocus hv
  · exact hs.apply_two function hv hw
  · exact hs.apply_three function hv hw hu
  · exact hs.apply_more function hv hw hu hr hargs

theorem call {name : String} {focus focus' : Focus} {args args' : List Value}
    (hfocus : scope.FocusImage f focus focus')
    (hargs : List.Forall₂ (Value.Related (scope.Images f)) args args') :
    SameOutcome (Value.Related (scope.Images f))
      (scope.call focus name args) (scope'.call focus' name args') := by
  have hscalars : args.map (Value.toScalar scope.document) =
      args'.map (Value.toScalar scope'.document) := by
    induction hargs with
    | nil => rfl
    | cons hv _ ih => rw [List.map_cons, List.map_cons, hs.toScalar hv, ih]
  unfold Scope.call
  rw [hs.functions]
  split
  · exact .error _
  · exact hs.apply_core _ hfocus hargs
  · rw [hscalars]
    refine (SameOutcome.of_eq rfl).bind fun scalar scalar' h => ?_
    subst h
    cases scalar with
    | string text => exact .ok (.string rfl)
    | number value => exact .ok (.number rfl)
    | boolean value => exact .ok (.boolean rfl)

end Scope.Iso
end XPath
