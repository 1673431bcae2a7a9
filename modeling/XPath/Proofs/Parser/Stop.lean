import XPath.Expr.Parse
import XPath.Proofs.Parser.Taken
/-! Where a syntax error lies. No parser tells a point behind the end of its text, neither for what it
took nor for how far it tried, whichever alternatives were given up on the way. So the place of a
syntax error is a character boundary of the text: counted in bytes, it is the further one of two such
boundaries, the end of what was read and the furthest point at which a token was tried. -/
namespace XPath
set_option autoImplicit false

/-! ## Points of a text -/

/-- Both points of the reply lie among the first `n` characters or right behind them. -/
def Reply.Within {α : Type} (r : Reply α) (n : Nat) : Prop := r.taken ≤ n ∧ r.reach ≤ n

namespace Parser

section
variable {α β : Type} {p q : Parser α} {f : α → Parser β}

/-- The parser counts what it takes, and tells no point behind the end of the text. -/
structure Inside (p : Parser α) : Prop where
  counts : Counts p
  within (s : List Char) : (p s).Within s.length

theorem Inside.bind (hp : Inside p) (hf : ∀ v, Inside (f v)) : Inside (p >>= f) := by
  refine ⟨hp.counts.bind fun v => (hf v).counts, fun s => ?_⟩
  obtain ⟨htaken, hreach⟩ := hp.within s
  show (Parser.bind p f s).Within s.length
  cases hfirst : (p s).result with
  | none =>
    simp only [Parser.bind, hfirst]
    exact ⟨htaken, hreach⟩
  | some found =>
    obtain ⟨hle, hmid⟩ := hp.counts s found.1 found.2 hfirst
    obtain ⟨htaken', hreach'⟩ := (hf found.1).within found.2
    have hlength : found.2.length = s.length - (p s).taken := by rw [hmid, List.length_drop]
    simp only [Parser.bind, hfirst, Reply.Within]
    omega

theorem Inside.orElse (hp : Inside p) (hq : Inside q) : Inside (p <|> q) := by
  refine ⟨hp.counts.orElse hq.counts, fun s => ?_⟩
  obtain ⟨htaken, hreach⟩ := hp.within s
  obtain ⟨htaken', hreach'⟩ := hq.within s
  show (Parser.orElse p q s).Within s.length
  cases hfirst : (p s).result with
  | some found =>
    simp only [Parser.orElse, hfirst]
    exact ⟨htaken, hreach⟩
  | none =>
    cases hsecond : (q s).result <;> simp only [Parser.orElse, hfirst, hsecond, Reply.Within] <;>
      omega

theorem Inside.peek (hp : Inside p) : Inside (peek p) := by
  refine ⟨.peek, fun s => ?_⟩
  obtain ⟨htaken, hreach⟩ := hp.within s
  cases hfirst : (p s).result <;> simp [Parser.peek, hfirst, Reply.Within, htaken, hreach]

/-- Each round leaves the end of the text where it is, so the points of the later rounds are added to
what the first one took without running past it. -/
theorem Inside.manyWithin (hp : Inside p) (count : Nat) : Inside (manyWithin p count) := by
  refine ⟨hp.counts.manyWithin count, fun s => ?_⟩
  induction count generalizing s with
  | zero => exact ⟨Nat.zero_le _, Nat.zero_le _⟩
  | succ count ih =>
    obtain ⟨htaken, hreach⟩ := hp.within s
    cases hfirst : (p s).result with
    | none => simp [Parser.manyWithin, hfirst, Reply.Within, hreach]
    | some found =>
      obtain ⟨hle, hmid⟩ := hp.counts s found.1 found.2 hfirst
      obtain ⟨htaken', hreach'⟩ := ih found.2
      have hlength : found.2.length = s.length - (p s).taken := by rw [hmid, List.length_drop]
      by_cases hzero : (p s).taken = 0
      · simp [Parser.manyWithin, hfirst, hzero, Reply.Within, hreach]
      · simp only [Parser.manyWithin, hfirst, hzero, ↓reduceIte, Reply.Within]
        omega

theorem Inside.satisfy (cls : Char → Bool) : Inside (satisfy cls) := by
  refine ⟨.satisfy cls, fun s => ?_⟩
  cases s with
  | nil => exact ⟨Nat.zero_le _, Nat.zero_le _⟩
  | cons c s => cases hc : cls c <;> simp [Parser.satisfy, hc, Reply.Within]

theorem Inside.takeWhile (cls : Char → Bool) : Inside (takeWhile cls) :=
  ⟨.takeWhile cls, fun s => ⟨(Counts.takeWhile cls s _ _ rfl).1, Nat.zero_le _⟩⟩

/-- A word ends inside a text that begins with it, also where a longer word goes on from there. -/
theorem Inside.wordNotBefore (text : String) (cls : Char → Bool) :
    Inside (wordNotBefore text cls) := by
  refine ⟨.wordNotBefore text cls, fun s => ?_⟩
  unfold Parser.wordNotBefore
  cases h : text.toList.isPrefixOf? s with
  | none => exact ⟨Nat.zero_le _, Nat.zero_le _⟩
  | some rest =>
    obtain rfl := List.isPrefixOf?_eq_some_iff_append_eq.mp h
    cases hends : rest.head?.any cls <;>
      simp [hends, Reply.Within, ← String.length_toList]

theorem Inside.word (text : String) : Inside (word text) := by
  refine ⟨.word text, fun s => ?_⟩
  unfold Parser.word
  cases h : text.toList.isPrefixOf? s with
  | none => exact ⟨Nat.zero_le _, Nat.zero_le _⟩
  | some rest =>
    obtain rfl := List.isPrefixOf?_eq_some_iff_append_eq.mp h
    simp [Reply.Within, ← String.length_toList]

theorem inside_closed : Closed Inside where
  pure := ⟨.pure, fun _ => ⟨Nat.zero_le _, Nat.zero_le _⟩⟩
  fail := ⟨.fail, fun _ => ⟨Nat.zero_le _, Nat.zero_le _⟩⟩
  bind := .bind
  orElse := .orElse
  peek := .peek
  many hp := ⟨hp.counts.many, fun s => (hp.manyWithin (s.length + 1)).within s⟩
  satisfy := .satisfy
  takeWhile := .takeWhile
  word := .word
  wordNotBefore := .wordNotBefore

end

theorem inside_expr : Inside expr :=
  ⟨fun s => (inside_closed.exprWithin (s.length + 1)).counts s,
    fun s => (inside_closed.exprWithin (s.length + 1)).within s⟩

end Parser

/-! ## Byte offsets -/

/-- How many bytes the characters take up. -/
def byteSize (s : List Char) : Nat := (String.ofList s).utf8ByteSize

section
variable {s : List Char} {m n : Nat}

theorem byteSize_toList (text : String) : byteSize text.toList = text.utf8ByteSize := by
  rw [byteSize, String.ofList_toList]

theorem byteSize_append (s t : List Char) : byteSize (s ++ t) = byteSize s + byteSize t := by
  rw [byteSize, String.ofList_append, String.utf8ByteSize_append, byteSize, byteSize]

theorem byteSize_take_add_drop (s : List Char) (n : Nat) :
    byteSize (s.take n) + byteSize (s.drop n) = byteSize s := by
  rw [← byteSize_append, List.take_append_drop]

theorem byteSize_take_le (h : m ≤ n) : byteSize (s.take m) ≤ byteSize (s.take n) := by
  have hsplit := byteSize_take_add_drop (s.take n) m
  rw [List.take_take, Nat.min_eq_left h] at hsplit
  omega

/-- Behind the further of two points stands the shorter remainder. -/
theorem byteSize_drop_max (s : List Char) (m n : Nat) :
    byteSize (s.drop (max m n)) = min (byteSize (s.drop m)) (byteSize (s.drop n)) := by
  have hm := byteSize_take_add_drop s m
  have hn := byteSize_take_add_drop s n
  rcases Nat.le_total m n with h | h
  · have hle := byteSize_take_le (s := s) h
    rw [Nat.max_eq_right h]
    omega
  · have hle := byteSize_take_le (s := s) h
    rw [Nat.max_eq_left h]
    omega

end

/-! ## Syntax errors -/

/-- What an expression leaves of a text, white space in front of it apart, or the text from where the
parser of expressions is stuck. -/
def Parser.remainder (s : List Char) : List Char :=
  match (expr s).result with
  | some (_, rest) => rest.dropWhile Text.isSpace
  | none => s.drop (expr s).taken

variable {text : String} {e : SyntaxError}

/-- The error stands at the further one of two points: where the remainder begins, which is not before
the end of what was taken, and where the last token was tried. -/
theorem exists_stop (h : Expr.parse text = .error e) :
    e.expression = text ∧ ∃ k, (Parser.expr text.toList).taken ≤ k ∧
      Parser.remainder text.toList = text.toList.drop k ∧
      e.stop = text.toList.drop (max k (Parser.expr text.toList).reach) := by
  unfold Expr.parse at h
  unfold Parser.remainder
  dsimp only at h
  cases hresult : (Parser.expr text.toList).result with
  | none =>
    rw [hresult] at h
    obtain rfl := Except.error.inj h
    exact ⟨rfl, _, le_rfl, rfl, rfl⟩
  | some found =>
    obtain ⟨-, hrest⟩ := Parser.inside_expr.counts _ found.1 found.2 hresult
    obtain ⟨-, hdrop⟩ := Parser.Counts.takeWhile Text.isSpace found.2 _ _ rfl
    have hremainder : found.2.dropWhile Text.isSpace = text.toList.drop
        ((Parser.expr text.toList).taken + (found.2.takeWhile Text.isSpace).length) := by
      rw [← List.drop_drop, ← hrest]
      exact hdrop
    rw [hresult] at h
    dsimp only at h ⊢
    rw [hremainder] at h ⊢
    split at h
    · cases h
    · refine ⟨?_, _, Nat.le_add_right _ _, rfl, ?_⟩
      all_goals split at h
      all_goals obtain rfl := Except.error.inj h
      · rfl
      · rfl
      · next hlt => rw [Nat.max_eq_right hlt.le]
      · next hge => rw [Nat.max_eq_left (Nat.le_of_not_lt hge)]

theorem SyntaxError.offset_eq_byteSize_take {k : Nat} (hstop : e.stop = e.expression.toList.drop k) :
    e.offset = byteSize (e.expression.toList.take k) := by
  have hsplit := byteSize_take_add_drop e.expression.toList k
  rw [byteSize_toList] at hsplit
  unfold SyntaxError.offset
  rw [hstop]
  change _ - byteSize _ = _
  omega

theorem SyntaxError.stop_eq_nil_iff {k : Nat} (hstop : e.stop = e.expression.toList.drop k) :
    e.stop = [] ↔ e.offset = e.expression.utf8ByteSize := by
  have hsplit := byteSize_take_add_drop e.expression.toList k
  rw [byteSize_toList, ← offset_eq_byteSize_take hstop, ← hstop] at hsplit
  constructor
  · intro hnil
    rw [hnil] at hsplit
    exact hsplit
  · intro hend
    have hzero : (String.ofList e.stop).utf8ByteSize = 0 := by
      change byteSize e.stop = 0
      omega
    rw [String.utf8ByteSize_eq_zero_iff] at hzero
    simpa using congrArg String.toList hzero

/-- A syntax error points into the text. Its offset is a character boundary that does not lie before
the end of what was read, or before the point where the parser is stuck: the text has there the
shorter one of what is left behind the last token tried and of the remainder. The description quotes
what begins there, and quotes nothing just if that is the end. -/
theorem syntax_error_in_text (h : Expr.parse text = .error e) :
    let s := text.toList
    let reply := Parser.expr s
    e.expression = text ∧
    e.offset ≤ text.utf8ByteSize ∧ (⟨e.offset⟩ : String.Pos.Raw).IsValid text ∧
    (∀ expr rest, reply.result = some (expr, rest) →
      ∃ read, s = read ++ rest ∧ byteSize read ≤ e.offset) ∧
    (reply.result = none →
      reply.taken ≤ s.length ∧ byteSize (s.take reply.taken) ≤ e.offset) ∧
    reply.reach ≤ s.length ∧
    e.offset = text.utf8ByteSize -
      min (byteSize (s.drop reply.reach)) (byteSize (Parser.remainder s)) ∧
    ∃ before after : String, text = before ++ after ∧ e.offset = before.utf8ByteSize ∧
      e.description = if e.offset = text.utf8ByteSize then e.problem.text
        else e.problem.text ++ " near '" ++ String.ofList (after.toList.take 16) ++ "'" := by
  obtain ⟨rfl, k, htaken, hremainder, hstop⟩ := exists_stop h
  intro s reply
  have hinside := Parser.inside_expr.within s
  have hoffset := SyntaxError.offset_eq_byteSize_take hstop
  have hread : byteSize (s.take reply.taken) ≤ e.offset := by
    rw [hoffset]
    exact byteSize_take_le (htaken.trans (le_max_left _ _))
  have hsplit : e.expression = String.ofList (s.take (max k reply.reach)) ++
      String.ofList (s.drop (max k reply.reach)) := by
    rw [← String.ofList_append, List.take_append_drop, String.ofList_toList]
  have hvalid : (⟨e.offset⟩ : String.Pos.Raw).IsValid e.expression :=
    String.Pos.Raw.isValid_iff_exists_take_toList.mpr ⟨_, hoffset⟩
  refine ⟨rfl, Nat.sub_le _ _, hvalid, fun expr rest hresult => ?_, fun _ => ⟨hinside.1, hread⟩,
    hinside.2, ?_, _, _, hsplit, hoffset, ?_⟩
  · obtain ⟨-, hrest⟩ := Parser.inside_expr.counts s expr rest hresult
    exact ⟨s.take reply.taken, by rw [hrest, List.take_append_drop], hread⟩
  · rw [hremainder, min_comm, ← byteSize_drop_max, ← hstop]
    rfl
  · unfold SyntaxError.description SyntaxError.near
    rw [String.toList_ofList, ← hstop]
    exact if_congr (List.isEmpty_iff.trans (SyntaxError.stop_eq_nil_iff hstop)) rfl rfl

/-- The call is given up, since a name may not follow a numeral, and its name is read as a path. The
error lies where the call stopped, behind a character of two bytes. -/
theorem syntax_error_in_text_of_call :
    ∃ e : SyntaxError, Expr.parse "contains('é', 1é)" = .error e ∧
      e.expression = "contains('é', 1é)" ∧ e.offset = 16 ∧
      (⟨e.offset⟩ : String.Pos.Raw).IsValid "contains('é', 1é)" ∧
      (Parser.expr "contains('é', 1é)".toList).taken = 8 ∧
      (Parser.expr "contains('é', 1é)".toList).reach = 15 ∧
      e.description = "unexpected input near 'é)'" := by
  obtain ⟨hstop, htaken, hreach⟩ : (match Expr.parse "contains('é', 1é)" with
      | .error e => e.stop == "é)".toList && e.problem == .unexpectedInput
      | .ok _ => false) = true ∧ (Parser.expr "contains('é', 1é)".toList).taken = 8 ∧
        (Parser.expr "contains('é', 1é)".toList).reach = 15 := by decide +kernel
  cases hparse : Expr.parse "contains('é', 1é)" with
  | ok _ =>
    rw [hparse] at hstop
    cases hstop
  | error e =>
    rw [hparse] at hstop
    simp only [Bool.and_eq_true, beq_iff_eq] at hstop
    obtain ⟨hexpression, -, hvalid, -, -, -, -, -⟩ := syntax_error_in_text hparse
    obtain ⟨expression, problem, stop⟩ := e
    obtain rfl : expression = "contains('é', 1é)" := hexpression
    obtain rfl : stop = "é)".toList := hstop.1
    obtain rfl : problem = .unexpectedInput := hstop.2
    exact ⟨_, rfl, rfl, by decide +kernel, hvalid, htaken, hreach, by decide +kernel⟩

end XPath
