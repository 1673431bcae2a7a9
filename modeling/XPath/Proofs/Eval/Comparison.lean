import XPath.Proofs.Eval.Variables
/-! Comparisons of values against their definition. Each side stands for scalars, and a comparison is
true if some choice from the two sides satisfies it; so it does not matter in which order the sides
are written, if the operator is turned around, nor in which order the members of a node-set come. -/
namespace XPath
set_option autoImplicit false

variable {d : Document} {op : Comparison} {a b : Scalar} {left right v other : Value}

/-- The operator for the sides in exchange. -/
def Comparison.mirrored : Comparison → Comparison
  | equal => equal
  | notEqual => notEqual
  | less => greater
  | lessEqual => greaterEqual
  | greater => less
  | greaterEqual => lessEqual

/-! ## Scalars -/

namespace Scalar

def isBoolean : Scalar → Bool
  | boolean _ => true
  | _ => false

def isNumber : Scalar → Bool
  | number _ => true
  | _ => false

/-- Equality as truth values if either side is a boolean, else as numbers if either is a number, else
as texts. Not-a-number is equal to nothing. -/
def Equal (a b : Scalar) : Prop :=
  if a.isBoolean ∨ b.isBoolean then a.truth = b.truth
  else if a.isNumber ∨ b.isNumber then a.toNumber.equals b.toNumber
  else a = b

end Scalar

/-- Whether two scalars satisfy an operator. Other operators than `=` and `!=` compare numbers. -/
def Comparison.Satisfied (op : Comparison) (a b : Scalar) : Prop :=
  match op with
  | equal => a.Equal b
  | notEqual => ¬ a.Equal b
  | less => a.toNumber.lt b.toNumber
  | lessEqual => a.toNumber.le b.toNumber
  | greater => b.toNumber.lt a.toNumber
  | greaterEqual => b.toNumber.le a.toNumber

theorem Number.equals_comm (x y : Number) : x.equals y = y.equals x := by
  unfold equals
  cases x.place with
  | none => cases y.place <;> rfl
  | some p =>
    cases y.place with
    | none => rfl
    | some q => exact Bool.beq_comm

namespace Scalar

theorem equals_eq_true_iff : a.equals b = true ↔ a.Equal b := by
  unfold Equal
  cases a with
  | boolean x => cases b <;> simp [equals, isBoolean, truth]
  | number x => cases b <;> simp [equals, isBoolean, isNumber, truth, toNumber]
  | string x => cases b <;> simp [equals, isBoolean, isNumber, truth, toNumber]

theorem equals_comm (a b : Scalar) : a.equals b = b.equals a := by
  cases a with
  | boolean x => cases b <;> exact Bool.beq_comm
  | number x =>
    cases b with
    | boolean y => exact Bool.beq_comm
    | number y => exact Number.equals_comm x y
    | string y => exact Number.equals_comm x (.parse y)
  | string x =>
    cases b with
    | boolean y => exact Bool.beq_comm
    | number y => exact Number.equals_comm (.parse x) y
    | string y => exact Bool.beq_comm

end Scalar

theorem Comparison.holds_eq_true_iff : op.holds a b = true ↔ op.Satisfied a b := by
  cases op with
  | equal => exact Scalar.equals_eq_true_iff
  | notEqual =>
    rw [holds, Satisfied, Bool.not_eq_true', ← Bool.not_eq_true, Scalar.equals_eq_true_iff]
  | less => rfl
  | lessEqual => rfl
  | greater => rfl
  | greaterEqual => rfl

theorem Comparison.holds_mirrored : op.mirrored.holds b a = op.holds a b := by
  cases op with
  | equal => exact Scalar.equals_comm b a
  | notEqual => exact congrArg Bool.not (Scalar.equals_comm b a)
  | less => rfl
  | lessEqual => rfl
  | greater => rfl
  | greaterEqual => rfl

/-! ## Values -/

/-- What a value stands for in a comparison with another one: a scalar for itself, a node-set against
a boolean for whether it has a member, and against anything else for the string value of any of
its members. -/
inductive Value.StandsFor (d : Document) : Value → Value → Scalar → Prop
  | scalar (a : Scalar) (other : Value) : StandsFor d (.ofScalar a) other a
  | truth (ids : List NodeId) {other : Value} (h : other.kind = .boolean) :
    StandsFor d (.nodes ids) other (.boolean (decide (ids ≠ [])))
  | member {ids : List NodeId} {id : NodeId} {other : Value} (h : other.kind ≠ .boolean)
    (hid : id ∈ ids) : StandsFor d (.nodes ids) other (.string (d.stringValue id))

namespace Value

theorem isBoolean_eq_true_iff : v.isBoolean = true ↔ v.kind = .boolean := by
  cases v <;> simp [isBoolean, kind]

theorem scalars_ofScalar (withBoolean : Bool) : (ofScalar a).scalars d withBoolean = [a] := by
  cases a <;> rfl

/-- Every value is a node-set or a scalar. -/
theorem eq_nodes_or_eq_ofScalar (v : Value) : (∃ ids, v = .nodes ids) ∨ ∃ a, v = ofScalar a := by
  cases v with
  | nodes ids => exact .inl ⟨ids, rfl⟩
  | string text => exact .inr ⟨.string text, rfl⟩
  | number value => exact .inr ⟨.number value, rfl⟩
  | boolean value => exact .inr ⟨.boolean value, rfl⟩

theorem mem_scalars_iff : a ∈ v.scalars d other.isBoolean ↔ v.StandsFor d other a := by
  constructor
  · intro ha
    rcases v.eq_nodes_or_eq_ofScalar with ⟨ids, rfl⟩ | ⟨b, rfl⟩
    · rw [scalars] at ha
      split at ha
      · next hother =>
        obtain rfl := List.mem_singleton.mp ha
        have htruth := StandsFor.truth (d := d) ids (isBoolean_eq_true_iff.mp hother)
        cases ids <;> exact htruth
      · next hother =>
        obtain ⟨id, hid, rfl⟩ := List.mem_map.mp ha
        exact .member (fun hkind => hother (isBoolean_eq_true_iff.mpr hkind)) hid
    · rw [scalars_ofScalar, List.mem_singleton] at ha
      exact ha ▸ .scalar a other
  · intro ha
    cases ha with
    | scalar =>
      rw [scalars_ofScalar]
      exact List.mem_singleton_self a
    | truth ids hother =>
      rw [scalars, if_pos (isBoolean_eq_true_iff.mpr hother)]
      cases ids <;> exact List.mem_singleton_self _
    | member hother hid =>
      rw [scalars, if_neg fun hkind => hother (isBoolean_eq_true_iff.mp hkind)]
      exact List.mem_map_of_mem hid

theorem compare_eq_true_iff : left.compare d op right = true ↔
    ∃ a b, left.StandsFor d right a ∧ right.StandsFor d left b ∧ op.Satisfied a b := by
  unfold compare
  simp only [List.any_eq_true, mem_scalars_iff, Comparison.holds_eq_true_iff]
  constructor
  · rintro ⟨a, ha, b, hb, hab⟩
    exact ⟨a, b, ha, hb, hab⟩
  · rintro ⟨a, b, ha, hb, hab⟩
    exact ⟨a, ha, b, hb, hab⟩

theorem compare_mirrored : right.compare d op.mirrored left = left.compare d op right := by
  unfold compare
  rw [Bool.eq_iff_iff]
  simp only [List.any_eq_true, Comparison.holds_mirrored]
  constructor
  · rintro ⟨b, hb, a, ha, hab⟩
    exact ⟨a, ha, b, hb, hab⟩
  · rintro ⟨a, ha, b, hb, hab⟩
    exact ⟨b, hb, a, ha, hab⟩

/-- Outside of node-sets, and opposite a boolean, there is nothing to choose. -/
theorem exists_scalars_eq_singleton (h : v.kind ≠ .nodeSet ∨ other.kind = .boolean) :
    ∃ a, v.scalars d other.isBoolean = [a] := by
  rcases v.eq_nodes_or_eq_ofScalar with ⟨ids, rfl⟩ | ⟨a, rfl⟩
  · have hother := isBoolean_eq_true_iff.mpr (h.resolve_left fun hkind => hkind rfl)
    rw [hother]
    exact ⟨_, rfl⟩
  · exact ⟨a, scalars_ofScalar _⟩

theorem compare_notEqual (hleft : left.kind ≠ .nodeSet ∨ right.kind = .boolean)
    (hright : right.kind ≠ .nodeSet ∨ left.kind = .boolean) :
    left.compare d .notEqual right = !left.compare d .equal right := by
  obtain ⟨a, ha⟩ := exists_scalars_eq_singleton (d := d) hleft
  obtain ⟨b, hb⟩ := exists_scalars_eq_singleton (d := d) hright
  simp [compare, ha, hb, Comparison.holds]

end Value

/-! ## The operators -/

/-- A comparison of two values is true if and only if some choice of the scalars that the two sides
stand for satisfies its operator. It is the same as the mirrored comparison of the sides in
exchange; inequality is the negation of equality unless there are members to choose from; and only
which nodes are members counts. -/
theorem comparisons_exact (d : Document) (op : Comparison) (left right : Value) :
    (∃ result, (BinaryOp.compare op).apply d left right = .ok (.boolean result) ∧
      (result = true ↔
        ∃ a b, left.StandsFor d right a ∧ right.StandsFor d left b ∧ op.Satisfied a b)) ∧
    (BinaryOp.compare op).apply d left right =
      (BinaryOp.compare op.mirrored).apply d right left ∧
    (left.kind ≠ .nodeSet ∧ right.kind ≠ .nodeSet ∨ left.kind = .boolean ∨ right.kind = .boolean →
      ∃ result, (BinaryOp.compare .equal).apply d left right = .ok (.boolean result) ∧
        (BinaryOp.compare .notEqual).apply d left right = .ok (.boolean !result)) ∧
    ∀ left' right', left.Related SameMembers left' → right.Related SameMembers right' →
      (BinaryOp.compare op).apply d left right = (BinaryOp.compare op).apply d left' right' := by
  refine ⟨⟨_, rfl, Value.compare_eq_true_iff⟩, ?_, fun h => ⟨_, rfl, ?_⟩,
    fun left' right' hleft hright => sameSet_apply hleft hright _⟩
  · rw [BinaryOp.apply, BinaryOp.apply, Value.compare_mirrored]
  · have hboolean : ∀ {v : Value}, v.kind = .boolean → v.kind ≠ .nodeSet := fun hv hset => by
      rw [hv] at hset
      cases hset
    rw [BinaryOp.apply, Value.compare_notEqual]
    · rcases h with h | h | h
      · exact .inl h.1
      · exact .inl (hboolean h)
      · exact .inr h
    · rcases h with h | h | h
      · exact .inl h.2
      · exact .inr h
      · exact .inl (hboolean h)

/-- Two members may make both equality and inequality true, and no member makes neither true, except
opposite a boolean; not-a-number differs from itself. -/
theorem comparisons_exact_of_two_members :
    let d := Edit.afterAll .empty [.createText "x", .createText "y"]
    let both := Value.nodes [⟨1⟩, ⟨2⟩]
    let text := Value.string "x"
    (∃ a b, both.StandsFor d text a ∧ text.StandsFor d both b ∧ Comparison.equal.Satisfied a b) ∧
      (∃ a b, both.StandsFor d text a ∧ text.StandsFor d both b ∧
        Comparison.notEqual.Satisfied a b) ∧
      (BinaryOp.compare .notEqual).apply d text both = .ok (.boolean true) ∧
      (BinaryOp.compare .notEqual).apply d (.nodes []) text = .ok (.boolean false) ∧
      (BinaryOp.compare .notEqual).apply d (.nodes []) (.boolean false) = .ok (.boolean false) ∧
      (BinaryOp.compare .notEqual).apply d (.number .nan) (.number .nan) = .ok (.boolean true) := by
  intro d both text
  have htrue : ∀ op : Comparison, (BinaryOp.compare op).apply d both text = .ok (.boolean true) →
      ∃ a b, both.StandsFor d text a ∧ text.StandsFor d both b ∧ op.Satisfied a b := by
    intro op hop
    obtain ⟨⟨result, happly, hiff⟩, -⟩ := comparisons_exact d op both text
    exact hiff.mp (Value.boolean.inj (Except.ok.inj (happly.symm.trans hop)))
  have hnotEqual : (BinaryOp.compare .notEqual).apply d both text = .ok (.boolean true) := by
    decide
  have hmirrored : (BinaryOp.compare .notEqual).apply d text both = .ok (.boolean true) :=
    (comparisons_exact d .notEqual both text).2.1.symm.trans hnotEqual
  obtain ⟨result, hequal, hnegated⟩ :=
    (comparisons_exact d .equal (.number .nan) (.number .nan)).2.2.1 (.inl (by decide))
  obtain rfl : result = false := Value.boolean.inj (Except.ok.inj hequal.symm)
  exact ⟨htrue .equal (by decide), htrue .notEqual hnotEqual, hmirrored, by decide +kernel,
    by decide, hnegated⟩

end XPath
