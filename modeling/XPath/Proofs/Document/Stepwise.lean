import XPath.Document.Stepwise
/-! Edits write by write. Every edit makes all of its checks before its first write: performed on a
document, it ends in the document that the edit as a whole returns, or fails and has written
nothing. -/
namespace XPath
set_option autoImplicit false

namespace Writer

variable {α β : Type} {d : Document}

/-! ## Running -/

theorem bind_eq (w : Writer α) (f : α → Writer β) :
    (w >>= f) d = match w d with
      | .ok a next => f a next
      | .error e left => .error e left := by
  show EStateM.bind w f d = _
  unfold EStateM.bind
  cases w d <;> rfl

theorem check_bind (read : Document → Except DocumentError α) (f : α → Writer β) :
    (check read >>= f) d = match read d with
      | .ok a => f a d
      | .error e => .error e d := by
  rw [bind_eq, check]
  cases read d <;> rfl

theorem get_bind (f : Document → Writer β) : ((get : Writer Document) >>= f) d = f d d := by
  rw [bind_eq]
  rfl

theorem throw_bind (e : DocumentError) (f : α → Writer β) :
    ((throw e : Writer α) >>= f) d = .error e d := by
  rw [bind_eq]
  rfl

/-! ## Whole edits -/

/-- The end of an edit that is done completely or not at all. -/
def whole (d : Document) :
    Except DocumentError Document → EStateM.Result DocumentError Document Unit
  | .ok next => .ok () next
  | .error e => .error e d

theorem insertBefore_eq (p c : NodeId) (r : Option NodeId) :
    insertBefore p c r d = whole d (d.insertBefore p c r) := by
  unfold insertBefore Document.insertBefore
  rw [check_bind]
  cases d.checkInsertion p c with
  | error e => rfl
  | ok _ =>
    cases r with
    | none => rfl
    | some s =>
      dsimp only
      rw [check_bind]
      cases hs : d.checkChild p s with
      | error e => rfl
      | ok _ =>
        by_cases hself : some s = some c
        · simp only [if_pos hself]
          rfl
        · simp only [if_neg hself]
          rfl

theorem removeChild_eq (p c : NodeId) : removeChild p c d = whole d (d.removeChild p c) := by
  unfold removeChild Document.removeChild
  rw [check_bind]
  cases d.node p with
  | error e => rfl
  | ok node =>
    dsimp only
    rw [check_bind]
    cases d.checkChild p c with
    | error e => rfl
    | ok _ => rfl

theorem setAttribute_eq (element : NodeId) (name : String) (uri : Option String) (value : String) :
    setAttribute element name uri value d =
      whole d ((d.setAttribute element name uri value).map Prod.fst) := by
  unfold setAttribute Document.setAttribute Document.putAttribute
  rw [check_bind]
  cases d.node element with
  | error e => rfl
  | ok node =>
    dsimp only
    cases helement : node.kind.isElement with
    | false =>
      rw [if_pos (by rfl), throw_bind]
      change _ = whole d (Except.map _ ((if _ then _ else _) >>= _))
      rw [if_pos (by rw [helement]; rfl)]
      rfl
    | true =>
      rw [if_neg (by decide), get_bind]
      change _ = whole d (Except.map _ ((if _ then _ else _) >>= _))
      rw [if_neg (by rw [helement]; decide)]
      cases hsame : d.sameAttribute? element (.ofText name) uri with
      | some id => rfl
      | none => rfl

theorem removeAttribute_eq (element : NodeId) (name : String) :
    removeAttribute element name d = whole d ((d.removeAttribute element name).map Prod.fst) := by
  unfold removeAttribute Document.removeAttribute
  rw [check_bind]
  cases d.node element with
  | error e => rfl
  | ok node =>
    dsimp only
    rw [get_bind]
    cases ha : d.attributeNode? element name with
    | some id =>
      simp only
      rfl
    | none => rfl

theorem setText_eq (id : NodeId) (data : String) :
    setText id data d = whole d (d.setText id data) := by
  unfold setText Document.setText
  rw [check_bind]
  cases d.node id with
  | error e => rfl
  | ok node =>
    dsimp only
    cases hdata : node.kind.withData? data with
    | some kind =>
      simp only [bind, Except.bind, hdata]
      rfl
    | none =>
      simp only [bind, Except.bind, hdata]
      rfl

end Writer

theorem Edit.perform_eq (edit : Edit) (d : Document) :
    edit.perform.run d = Writer.whole d (edit.run d) := by
  cases edit with
  | createElement name uri => rfl
  | createText data => rfl
  | createComment data => rfl
  | createInstruction target data => rfl
  | appendChild parent child => exact Writer.insertBefore_eq parent child none
  | insertBefore parent child reference => exact Writer.insertBefore_eq parent child reference
  | removeChild parent child => exact Writer.removeChild_eq parent child
  | setAttribute element name uri value => exact Writer.setAttribute_eq element name uri value
  | removeAttribute element name => exact Writer.removeAttribute_eq element name
  | setText id data => exact Writer.setText_eq id data

end XPath
