import XPath.Grammar.Abbreviation
import XPath.Proofs.Parser.Chain
/-! Written paths are read as what they mean. Each part is read up to blanks: some parsers take the
blanks behind them and some leave them, and whatever comes next drops them. An abbreviated step
meets parsers that are tried before its own, for calls, numerals and axis names; these are stuck at
it. -/
namespace XPath.Parser
set_option autoImplicit false

open Grammar

variable {n : Nat} {s t u mid rest : List Char} {expr : Parser Expr}

/-! ## Blanks around tokens -/

theorem dropBlanks_blanks (blanks : Blanks) :
    (blanks.val ++ s).dropWhile Text.isBlank = s.dropWhile Text.isBlank :=
  List.dropWhile_append_of_pos blanks.property

theorem spaced_char_blanks {c : Char} (hc : Text.isBlank c = false) (before after : Blanks)
    (hs : startsIn Text.isBlank s = false) :
    (spaced (char c) (before.val ++ c :: (after.val ++ s))).result = some (c, s) := by
  rw [(SkipsBlanks.spaced (char c)).append before.property, result_spaced_char hc,
    dropBlanks_blanks, dropBlanks_eq_self hs]

/-! ## Node tests -/

theorem text_append_anyWith {qualifier : String} (simple : IsSimpleName qualifier.toList) :
    (WrittenTest.anyWith qualifier simple).text ++ rest =
      qualifier.toList ++ ':' :: '*' :: rest := by
  show qualifier.toList ++ [':', '*'] ++ rest = _
  rw [List.append_assoc]
  rfl

theorem text_append_type {kind : String} {test : NodeTest}
    (known : (kind, test) ∈ Grammar.nodeTypes) (before inside : Blanks) :
    (WrittenTest.type kind test known before inside).text ++ rest =
      kind.toList ++ (before.val ++ '(' :: (inside.val ++ ')' :: rest)) := by
  show kind.toList ++ (before.val ++ '(' :: (inside.val ++ [')'])) ++ rest = _
  simp only [List.append_assoc, List.cons_append, List.nil_append]

theorem text_append_instruction {target : String} {quote : Char} (before inside behind : Blanks)
    (isQuote : quote = '\'' ∨ quote = '"') (apart : quote ∉ target.toList) :
    (WrittenTest.instruction target quote before inside behind isQuote apart).text ++ rest =
      "processing-instruction".toList ++ (before.val ++ '(' :: (inside.val ++
        quote :: (target.toList ++ quote :: (behind.val ++ ')' :: rest)))) := by
  show "processing-instruction".toList ++ (before.val ++ '(' ::
    (inside.val ++ quote :: (target.toList ++ quote :: (behind.val ++ [')'])))) ++ rest = _
  simp only [List.append_assoc, List.cons_append, List.nil_append]

theorem isSimpleName_kind {kind : String} {test : NodeTest}
    (known : (kind, test) ∈ Grammar.nodeTypes) : IsSimpleName kind.toList := by
  have hall : ∀ entry ∈ Grammar.nodeTypes, IsSimpleName entry.1.toList := by decide
  exact hall (kind, test) known

theorem isSimpleName_instruction : IsSimpleName "processing-instruction".toList := by decide

theorem writtenTest_begins (test : WrittenTest) :
    startsIn (fun c => c == '*' || isNameStart c) (test.text ++ rest) = true := by
  have hname : ∀ {s : List Char}, startsIn isNameStart s = true →
      startsIn (fun c => c == '*' || isNameStart c) s = true :=
    fun h => startsIn_of_imp h fun c hc => by rw [hc, Bool.or_true]
  cases test with
  | anyName => rfl
  | anyWith qualifier simple =>
    rw [text_append_anyWith]
    exact hname (startsIn_simpleName simple)
  | name expected proper => exact hname (startsIn_properName proper)
  | type kind test known before inside =>
    rw [text_append_type]
    exact hname (startsIn_simpleName (isSimpleName_kind known))
  | instruction target quote before inside behind isQuote apart =>
    rw [text_append_instruction]
    exact hname (startsIn_simpleName isSimpleName_instruction)

/-- What the name of a node type is read as. -/
theorem exists_kind {kind : String} {test : NodeTest} (known : (kind, test) ∈ Grammar.nodeTypes) :
    ∃ type : Option NodeTest, type.getD (.instruction none) = test ∧
      ∀ u, (nodeType (kind.toList ++ u)).result = some (type, u) ∧
        (char '*' (kind.toList ++ u)).result = none := by
  simp only [Grammar.nodeTypes, List.mem_cons, Prod.mk.injEq, List.not_mem_nil, or_false] at known
  rcases known with ⟨rfl, rfl⟩ | ⟨rfl, rfl⟩ | ⟨rfl, rfl⟩ | ⟨rfl, rfl⟩
  · exact ⟨none, rfl, fun _ => ⟨rfl, rfl⟩⟩
  · exact ⟨some .comment, rfl, fun _ => ⟨rfl, rfl⟩⟩
  · exact ⟨some .text, rfl, fun _ => ⟨rfl, rfl⟩⟩
  · exact ⟨some .node, rfl, fun _ => ⟨rfl, rfl⟩⟩

theorem nodeTest_of_typeTest {test : NodeTest} (hstar : (char '*' s).result = none)
    (h : (typeTest s).result = some (test, rest)) : (nodeTest s).result = some (test, rest) := by
  rw [nodeTest, result_firstOf_cons, result_firstOf_cons, result_bind, hstar, h]
  rfl

theorem typeTest_kind {kind : String} {test : NodeTest} (known : (kind, test) ∈ Grammar.nodeTypes)
    (before inside : Blanks) :
    (typeTest (kind.toList ++ (before.val ++ '(' :: (inside.val ++ ')' :: rest)))).result =
      some (test, rest) := by
  obtain ⟨type, rfl, htype⟩ := exists_kind known
  have hclose : (char ')' (')' :: rest)).result = some (')', rest) := result_char.mpr ⟨rfl, rfl⟩
  have hliteral : (literal (')' :: rest)).result = none := literal_none rfl
  unfold typeTest
  rw [result_bind, (htype _).1, Option.bind_some, result_bind,
    spaced_char_blanks rfl before inside rfl, Option.bind_some]
  cases type with
  | some test => simp [hclose]
  | none =>
    have hround : (')' :: rest).dropWhile Text.isBlank = ')' :: rest := rfl
    simp [result_optional, hround, hliteral, hclose]

theorem typeTest_target {target : String} {quote : Char} (hquote : quote = '\'' ∨ quote = '"')
    (hapart : quote ∉ target.toList) (before inside behind : Blanks) :
    (typeTest ("processing-instruction".toList ++ (before.val ++ '(' :: (inside.val ++
      quote :: (target.toList ++ quote :: (behind.val ++ ')' :: rest)))))).result =
      some (.instruction (some target), rest) := by
  have htype : ∀ u, (nodeType ("processing-instruction".toList ++ u)).result = some (none, u) :=
    fun _ => rfl
  have hblank : ∀ s, startsIn Text.isBlank (quote :: s) = false := by
    intro s
    rcases hquote with rfl | rfl <;> rfl
  have hliteral :
      (literal (quote :: (target.toList ++ quote :: (behind.val ++ ')' :: rest)))).result =
      some (target, behind.val ++ ')' :: rest) := result_literal.mpr ⟨quote, hquote, hapart, rfl⟩
  have hclose : (char ')' (')' :: rest)).result = some (')', rest) := result_char.mpr ⟨rfl, rfl⟩
  have hround : (behind.val ++ ')' :: rest).dropWhile Text.isBlank = ')' :: rest :=
    dropBlanks_blanks behind
  unfold typeTest
  rw [result_bind, htype, Option.bind_some, result_bind,
    spaced_char_blanks rfl before inside (hblank _)]
  simp [result_optional, dropBlanks_eq_self (hblank _), hliteral, hround, hclose]

theorem writtenTest_reads (test : WrittenTest) (hrest : AfterTest rest) :
    (nodeTest (test.text ++ rest)).result = some (test.test, rest) := by
  cases test with
  | anyName => rfl
  | anyWith qualifier simple =>
    have hrenders : (NodeTest.anyWith qualifier).Renders (qualifier.toList ++ [':', '*']) := rfl
    exact result_nodeTest hrenders simple hrest
  | name expected proper =>
    have hrenders : (NodeTest.name expected).Renders expected.text.toList := rfl
    exact result_nodeTest hrenders proper hrest
  | type kind test known before inside =>
    obtain ⟨_, -, htype⟩ := exists_kind known
    rw [text_append_type]
    exact nodeTest_of_typeTest (htype _).2 (typeTest_kind known before inside)
  | instruction target quote before inside behind isQuote apart =>
    rw [text_append_instruction]
    exact nodeTest_of_typeTest rfl (typeTest_target isQuote apart before inside behind)

/-! ## Axes -/

/-- A run of name characters is no axis if no two colons follow it. -/
theorem axisName_none {run after : List Char} (hrun : ∀ c ∈ run, isNameChar c = true)
    (hends : startsIn isNameChar after = false)
    (hcolons : (word "::" (after.dropWhile Text.isBlank)).result = none) :
    (axisName (run ++ after)).result = none := by
  refine Option.eq_none_iff_forall_ne_some.mpr fun found hfound => ?_
  obtain ⟨axis, mid, hname, hmid⟩ := exists_of_bind hfound
  obtain ⟨p, hp, hread⟩ := exists_of_firstOf hname
  obtain ⟨axis', -, rfl⟩ := List.mem_map.mp hp
  obtain ⟨-, hs⟩ := result_spelling.mp hread
  obtain ⟨u, final, hword, -⟩ := exists_of_bind hmid
  obtain ⟨more, rfl, rfl⟩ := exists_append_of_name (isSimpleName_axis axis').isNameChar hends hs
  have hstuck : (word "::" ((more ++ after).dropWhile Text.isBlank)).result = none := by
    cases more with
    | nil => exact hcolons
    | cons c more =>
      have hc : isNameChar c = true := hrun c (by simp)
      have hblank : Text.isBlank c = false := isBlank_eq_false isNameChar hc (by decide)
      rw [List.cons_append, List.dropWhile_cons_of_neg (by simp [hblank])]
      refine word_none rfl (?_ : (c == ':') = false)
      exact beq_eq_false_of_class (by decide) c hc
  rw [result_spaced, hstuck] at hword
  cases hword

theorem word_colons_none (h : AfterTest rest) :
    (word "::" (rest.dropWhile Text.isBlank)).result = none :=
  word_none rfl (Begins.startsIn h (by decide))

theorem startsIn_round (before : Blanks) :
    startsIn isNameChar (before.val ++ '(' :: s) = false := by
  have hround : isNameChar '(' = false := by decide
  exact startsIn_blanks before.property (fun _ => isNameChar_eq_false_of_isBlank) hround

theorem axisName_omitted (test : WrittenTest) (hrest : AfterTest rest) :
    (axisName (test.text ++ rest)).result = none := by
  have hcolon : isNameChar ':' = false := by decide
  have hround : ∀ (before : Blanks) (s : List Char),
      (word "::" ((before.val ++ '(' :: s).dropWhile Text.isBlank)).result = none := by
    intro before s
    rw [dropBlanks_blanks]
    rfl
  cases test with
  | anyName =>
    have hstar : isNameChar '*' = false := by decide
    exact @axisName_none [] ('*' :: rest) (by simp) hstar rfl
  | anyWith qualifier simple =>
    rw [text_append_anyWith]
    exact @axisName_none _ (':' :: '*' :: rest) simple.isNameChar hcolon rfl
  | name expected proper =>
    obtain ⟨qualifier, localPart⟩ := expected
    cases qualifier with
    | none => exact axisName_none proper.2.isNameChar hrest.isNameChar (word_colons_none hrest)
    | some qualifier =>
      have htext : (WrittenTest.name ⟨some qualifier, localPart⟩ proper).text ++ rest =
          qualifier.toList ++ ':' :: (localPart.toList ++ rest) := by
        show (QName.text ⟨some qualifier, localPart⟩).toList ++ rest = _
        simp [QName.text]
      have hlocal : startsIn (· == ':') (localPart.toList ++ rest) = false :=
        startsIn_disjoint (startsIn_simpleName proper.2) (beq_eq_false_of_class (by decide))
      rw [htext]
      refine axisName_none (proper.1 qualifier rfl).isNameChar hcolon ?_
      refine Option.eq_none_iff_forall_ne_some.mpr fun found hfound => ?_
      have heq : ':' :: (localPart.toList ++ rest) = ':' :: ':' :: found.2 := result_word.mp hfound
      rw [(List.cons.inj heq).2] at hlocal
      cases hlocal
  | type kind test known before inside =>
    rw [text_append_type]
    exact axisName_none (isSimpleName_kind known).isNameChar (startsIn_round before) (hround _ _)
  | instruction target quote before inside behind isQuote apart =>
    rw [text_append_instruction]
    exact axisName_none isSimpleName_instruction.isNameChar (startsIn_round before) (hround _ _)

theorem axisTest_reads (axis : WrittenAxis) (test : WrittenTest) (hrest : AfterTest rest) :
    (axisTest (axis.text ++ (test.text ++ rest))).result = some ((axis.axis, test.test), rest) := by
  have htest : (nodeTest (test.text ++ rest)).result = some (test.test, rest) :=
    writtenTest_reads test hrest
  have hblank : startsIn Text.isBlank (test.text ++ rest) = false :=
    startsIn_disjoint (writtenTest_begins test) fun c hc =>
      isBlank_eq_false (fun c => c == '*' || isNameStart c) hc (by decide)
  cases axis with
  | named axis before after =>
    have htext : (WrittenAxis.named axis before after).text ++ (test.text ++ rest) =
        axis.name.toList ++ (before.val ++ ':' :: ':' :: (after.val ++ (test.text ++ rest))) := by
      simp [WrittenAxis.text]
    rw [htext]
    refine result_axisTest axis before.property ?_
    rwa [dropBlanks_blanks, dropBlanks_eq_self hblank]
  | atSign after =>
    have hat := spaced_char_blanks (c := '@') rfl noBlanks after hblank
    have htext : (WrittenAxis.atSign after).text ++ (test.text ++ rest) =
        noBlanks.val ++ '@' :: (after.val ++ (test.text ++ rest)) := rfl
    rw [htext, axisTest, result_orElse, result_bind, hat]
    simp [htest, WrittenAxis.axis]
  | omitted =>
    have hat : (spaced (char '@') (test.text ++ rest)).result = none := by
      refine spaced_char_none ?_
      rw [dropBlanks_eq_self hblank]
      exact startsIn_disjoint (writtenTest_begins test) (beq_eq_false_of_class (by decide))
    show (axisTest (test.text ++ rest)).result = _
    rw [axisTest, result_orElse, result_bind, hat, result_bind, result_optional,
      axisName_omitted test hrest]
    simp [htest, WrittenAxis.axis]

/-! ## Steps -/

/-- What may follow a written step: nothing or a separator, perhaps behind blanks. -/
def AfterWritten (rest : List Char) : Prop := Begins ['/'] (rest.dropWhile Text.isBlank)

theorem afterTest_predicates (predicates : List WrittenPredicate) (hrest : AfterWritten rest) :
    AfterTest (predicates.flatMap WrittenPredicate.text ++ rest) := by
  unfold AfterTest
  cases predicates with
  | nil => exact Begins.imp hrest (by simp)
  | cons predicate predicates =>
    rw [List.flatMap_cons, List.append_assoc, WrittenPredicate.text, List.append_assoc,
      dropBlanks_blanks]
    exact begins_cons (by simp)

/-- The characters that an axis and a node test can begin with. -/
def beginsTest (c : Char) : Bool := c == '@' || c == '*' || isNameStart c

theorem writtenAxis_begins (axis : WrittenAxis) (test : WrittenTest) :
    startsIn beginsTest (axis.text ++ (test.text ++ rest)) = true := by
  cases axis with
  | named axis before after =>
    rw [WrittenAxis.text, List.append_assoc]
    refine startsIn_of_imp (startsIn_simpleName (isSimpleName_axis axis)) fun c hc => ?_
    rw [beginsTest, hc, Bool.or_true]
  | atSign after => rfl
  | omitted =>
    refine startsIn_of_imp (writtenTest_begins test) fun c hc => ?_
    rw [beginsTest, Bool.or_assoc, hc, Bool.or_true]

theorem text_append_full (axis : WrittenAxis) (test : WrittenTest)
    (predicates : List WrittenPredicate) :
    (WrittenStep.full axis test predicates).text ++ rest =
      axis.text ++ (test.text ++ (predicates.flatMap WrittenPredicate.text ++ rest)) := by
  show axis.text ++ (test.text ++ _) ++ rest = _
  simp only [List.append_assoc]

theorem writtenStep_begins (step : WrittenStep) :
    startsIn beginsStep (step.text ++ rest) = true := by
  cases step with
  | self => rfl
  | parent => rfl
  | full axis test predicates =>
    rw [text_append_full]
    refine startsIn_of_imp (writtenAxis_begins axis test) fun c hc => ?_
    simp only [beginsTest, Bool.or_eq_true] at hc
    simp only [beginsStep, Bool.or_eq_true]
    tauto

theorem writtenStep_head (step : WrittenStep) :
    startsIn Text.isBlank (step.text ++ rest) = false ∧
      startsIn (· == '/') (step.text ++ rest) = false ∧
      startsIn (· == '-') (step.text ++ rest) = false := by
  have hbegins := @writtenStep_begins rest step
  exact ⟨startsIn_disjoint hbegins fun c hc => isBlank_eq_false beginsStep hc (by decide),
    startsIn_disjoint hbegins (beq_eq_false_of_class (by decide)),
    startsIn_disjoint hbegins (beq_eq_false_of_class (by decide))⟩

theorem skipsBlanks_predicate : SkipsBlanks (predicate expr) := SkipsBlanks.bind (.spaced _)

theorem writtenPredicate_reads (predicate : WrittenPredicate)
    (hs : s.dropWhile Text.isBlank = (predicate.text ++ rest).dropWhile Text.isBlank)
    (hn : (predicate.text ++ rest).length ≤ n) :
    (Parser.predicate (exprWithin n) s).result =
      some (predicate.condition.expr, rest.dropWhile Text.isBlank) := by
  obtain ⟨before, condition⟩ := predicate
  have htext : WrittenPredicate.text ⟨before, condition⟩ ++ rest =
      before.val ++ '[' :: (condition.text ++ ']' :: rest) := by simp [WrittenPredicate.text]
  rw [htext] at hs hn
  have hlength : (condition.text ++ ']' :: rest).length < n := by
    simp only [List.length_append, List.length_cons] at hn ⊢
    omega
  obtain ⟨mid, hread, hmid⟩ := enclosed_reads condition hlength rfl
  rw [skipsBlanks_exprWithin] at hread
  rw [skipsBlanks_predicate s, hs, dropBlanks_blanks]
  exact result_predicate hread hmid

theorem writtenPredicates_read (predicates : List WrittenPredicate)
    (hs : s.dropWhile Text.isBlank =
      (predicates.flatMap WrittenPredicate.text ++ rest).dropWhile Text.isBlank)
    (hn : (predicates.flatMap WrittenPredicate.text ++ rest).length ≤ n)
    (hrest : startsIn (· == '[') (rest.dropWhile Text.isBlank) = false) :
    ∃ mid, (many (Parser.predicate (exprWithin n)) s).result =
        some (predicates.map (·.condition.expr), mid) ∧
      mid.dropWhile Text.isBlank = rest.dropWhile Text.isBlank := by
  induction predicates generalizing s with
  | nil => exact ⟨s, result_many_nil (predicate_none (hs ▸ hrest)), hs⟩
  | cons predicate predicates ih =>
    rw [List.flatMap_cons, List.append_assoc] at hs hn
    have hread := writtenPredicate_reads predicate hs hn
    have hlength : (predicates.flatMap WrittenPredicate.text ++ rest).length ≤ n := by
      rw [List.length_append] at hn
      omega
    obtain ⟨mid, hmore, hmid⟩ := ih dropBlanks_dropBlanks hlength
    refine ⟨mid, ?_, hmid⟩
    rw [result_many_step (counts_predicate (counts_exprWithin n)) takes_predicate hread, hmore]
    rfl

theorem writtenStep_reads (step : WrittenStep) (hn : (step.text ++ rest).length ≤ n)
    (hrest : AfterWritten rest) :
    ∃ mid, (Parser.step (exprWithin n) (step.text ++ rest)).result = some (step.step, mid) ∧
      mid.dropWhile Text.isBlank = rest.dropWhile Text.isBlank := by
  cases step with
  | self =>
    have hpoint : startsIn (· == '.') rest = false :=
      startsIn_of_dropBlanks (beq_eq_false_of_class rfl) (Begins.startsIn hrest (by decide))
    have hdots : (word ".." ('.' :: rest)).result = none := by
      refine Option.eq_none_iff_forall_ne_some.mpr fun found hfound => ?_
      have heq : '.' :: rest = '.' :: '.' :: found.2 := result_word.mp hfound
      rw [(List.cons.inj heq).2] at hpoint
      cases hpoint
    have hdot : (spelling "." (Step.toAny .self) ('.' :: rest)).result =
        some (.toAny .self, rest) := result_spelling.mpr ⟨rfl, rfl⟩
    have hread : (Parser.step (exprWithin n) ('.' :: rest)).result = some (.toAny .self, rest) := by
      simp [Parser.step, spelling_none hdots, hdot]
    exact ⟨rest, hread, rfl⟩
  | parent => exact ⟨rest, rfl, rfl⟩
  | full axis test predicates =>
    rw [text_append_full] at hn ⊢
    have hlength : (predicates.flatMap WrittenPredicate.text ++ rest).length ≤ n := by
      simp only [List.length_append] at hn ⊢
      omega
    obtain ⟨mid, hpredicates, hmid⟩ := writtenPredicates_read predicates rfl hlength
      (Begins.startsIn hrest (by decide))
    have hpoint : startsIn (· == '.') (axis.text ++
        (test.text ++ (predicates.flatMap WrittenPredicate.text ++ rest))) = false :=
      startsIn_disjoint (writtenAxis_begins axis test) (beq_eq_false_of_class (by decide))
    refine ⟨mid, ?_, hmid⟩
    rw [step_eq_fullStep hpoint, fullStep, result_bind,
      axisTest_reads axis test (afterTest_predicates predicates hrest), Option.bind_some]
    dsimp only
    rw [result_bind, hpredicates]
    rfl

/-! ## Segments -/

theorem segment_head (segment : Segment) :
    (segment.text ++ rest).dropWhile Text.isBlank =
      '/' :: ((if segment.double then ['/'] else []) ++
        (segment.after.val ++ (segment.step.text ++ rest))) := by
  unfold Segment.text
  rw [List.append_assoc, List.append_assoc, dropBlanks_blanks]
  cases segment.double <;> simp [Text.isBlank]

theorem length_step_le (segment : Segment) :
    segment.step.text.length ≤ segment.text.length := by
  unfold Segment.text
  simp only [List.length_append]
  omega

theorem afterWritten_segments (segments : List Segment)
    (hrest : rest.dropWhile Text.isBlank = []) :
    AfterWritten (segments.flatMap Segment.text ++ rest) := by
  unfold AfterWritten
  cases segments with
  | nil =>
    rw [List.flatMap_nil, List.nil_append, hrest]
    rintro c ⟨⟩
  | cons segment segments =>
    rw [List.flatMap_cons, List.append_assoc, segment_head]
    exact begins_cons (by simp)

theorem separator_reads (after : Blanks) (double : Bool)
    (hblank : startsIn Text.isBlank t = false) (hslash : startsIn (· == '/') t = false) :
    (separator ('/' :: ((if double then ['/'] else []) ++ (after.val ++ t)))).result =
      some (double, t) := by
  have hdrop : (after.val ++ t).dropWhile Text.isBlank = t := by
    rw [dropBlanks_blanks, dropBlanks_eq_self hblank]
  have hround : ∀ s, ('/' :: s).dropWhile Text.isBlank = '/' :: s := fun _ => rfl
  unfold separator
  rw [result_spaced, hround, result_orElse]
  cases double with
  | true =>
    have hdouble : (spelling "//" true ('/' :: '/' :: (after.val ++ t))).result =
        some (true, after.val ++ t) := result_spelling.mpr ⟨rfl, rfl⟩
    simp [hdouble, hdrop]
  | false =>
    have hnone : (word "//" ('/' :: (after.val ++ t))).result = none :=
      word_double_none (startsIn_blanks after.property (beq_eq_false_of_class rfl) hslash)
    have hsingle : (spelling "/" false ('/' :: (after.val ++ t))).result =
        some (false, after.val ++ t) := result_spelling.mpr ⟨rfl, rfl⟩
    simp [spelling_none hnone, hsingle, hdrop]

theorem skipsBlanks_nextSteps : SkipsBlanks (nextSteps expr) := SkipsBlanks.bind (.spaced _)

theorem segment_reads (segment : Segment)
    (hs : s.dropWhile Text.isBlank = (segment.text ++ rest).dropWhile Text.isBlank)
    (hn : (segment.text ++ rest).length ≤ n) (hrest : AfterWritten rest) :
    ∃ mid, (nextSteps (exprWithin n) s).result = some (segment.steps, mid) ∧
      mid.dropWhile Text.isBlank = rest.dropWhile Text.isBlank := by
  obtain ⟨hblank, hslash, -⟩ := @writtenStep_head rest segment.step
  have hlength : (segment.step.text ++ rest).length ≤ n := by
    have hstep := length_step_le segment
    simp only [List.length_append] at hn ⊢
    omega
  obtain ⟨mid, hstep, hmid⟩ := writtenStep_reads segment.step hlength hrest
  refine ⟨mid, ?_, hmid⟩
  rw [skipsBlanks_nextSteps s, hs, segment_head, nextSteps, result_bind,
    separator_reads segment.after segment.double hblank hslash, Option.bind_some, result_bind,
    hstep]
  rfl

theorem segments_read (segments : List Segment)
    (hs : s.dropWhile Text.isBlank =
      (segments.flatMap Segment.text ++ rest).dropWhile Text.isBlank)
    (hn : (segments.flatMap Segment.text ++ rest).length ≤ n)
    (hrest : rest.dropWhile Text.isBlank = []) :
    ∃ mid, (moreSteps (exprWithin n) s).result = some (segments.flatMap Segment.steps, mid) ∧
      mid.dropWhile Text.isBlank = [] := by
  suffices hmany : ∃ mid, (many (nextSteps (exprWithin n)) s).result =
      some (segments.map Segment.steps, mid) ∧ mid.dropWhile Text.isBlank = [] by
    obtain ⟨mid, hread, hmid⟩ := hmany
    refine ⟨mid, ?_, hmid⟩
    rw [moreSteps, result_map, hread, List.flatMap_def]
    rfl
  induction segments generalizing s with
  | nil =>
    rw [List.flatMap_nil, List.nil_append, hrest] at hs
    exact ⟨s, result_many_nil (nextSteps_none (by rw [hs]; rfl)), hs⟩
  | cons segment segments ih =>
    rw [List.flatMap_cons, List.append_assoc] at hs hn
    obtain ⟨mid, hread, hmid⟩ := segment_reads segment hs hn (afterWritten_segments segments hrest)
    have hlength : (segments.flatMap Segment.text ++ rest).length ≤ n := by
      rw [List.length_append] at hn
      omega
    obtain ⟨final, hmore, hfinal⟩ := ih hmid hlength
    refine ⟨final, ?_, hfinal⟩
    rw [result_many_step (counts_nextSteps (counts_exprWithin n)) takes_nextSteps hread, hmore]
    rfl

/-! ## Steps are no primary expressions -/

theorem primary_none_of_kind {name : String} (hname : IsSimpleName name.toList)
    (htype : name ∈ Parser.nodeTypes) (before : Blanks) :
    (primary expr (name.toList ++ (before.val ++ '(' :: s))).result = none := by
  have hcolon : startsIn (· == ':') (before.val ++ '(' :: s) = false :=
    startsIn_blanks before.property (beq_eq_false_of_class rfl) rfl
  refine primary_none_of_name (startsIn_simpleName hname)
    (qualifiedName_plain hname (startsIn_round before) fun after heq => ?_) (Or.inr htype)
  rw [heq] at hcolon
  cases hcolon

theorem primary_none_of_test (test : WrittenTest) (hrest : AfterTest rest) :
    (primary expr (test.text ++ rest)).result = none := by
  cases test with
  | anyName => exact @primary_none expr ('*' :: rest) rfl (by decide : beginsPrimary '*' = false)
  | anyWith qualifier simple =>
    have hcolon : isNameChar ':' = false := by decide
    have hstar : isNameStart '*' = false := by decide
    have hname : (qualifiedName (qualifier.toList ++ ':' :: '*' :: rest)).result =
        some (qualifier, ':' :: '*' :: rest) := by
      refine qualifiedName_plain simple hcolon fun after heq => ?_
      rw [← (List.cons.inj heq).2]
      exact hstar
    rw [text_append_anyWith]
    exact primary_none_of_name (startsIn_simpleName simple) hname (Or.inl rfl)
  | name expected proper =>
    exact primary_none_of_name (startsIn_properName proper)
      (result_qualifiedName proper hrest.isNameChar hrest.colon)
      (Or.inl (Begins.startsIn hrest (by decide)))
  | type kind test known before inside =>
    have hall : ∀ entry ∈ Grammar.nodeTypes, entry.1 ∈ Parser.nodeTypes := by decide
    rw [text_append_type]
    exact primary_none_of_kind (isSimpleName_kind known) (hall (kind, test) known) before
  | instruction target quote before inside behind isQuote apart =>
    rw [text_append_instruction]
    exact primary_none_of_kind isSimpleName_instruction (by decide) before

/-- A point begins a numeral only in front of a digit. -/
theorem primary_none_of_point (hs : startsIn Char.isDigit s = false) :
    (primary expr ('.' :: s)).result = none := by
  have hnumeral : (numeral ('.' :: s)).result = none := by
    have hnone : s.takeWhile Char.isDigit = [] := by
      cases s with
      | nil => rfl
      | cons c s => exact List.takeWhile_cons_of_neg (by simpa [startsIn] using hs)
    have hpoint : (char '.' ('.' :: s)).result = some ('.', s) := result_char.mpr ⟨rfl, rfl⟩
    have hwhole : (wholeNumeral ('.' :: s)).result = none := by
      rw [result_wholeNumeral]
      rfl
    rw [numeral, result_orElse, hwhole, pointNumeral, result_bind, hpoint, Option.bind_some,
      result_bind, result_digits, if_pos hnone]
    rfl
  have hname : startsIn isNameStart ('.' :: s) = false := (by decide : isNameStart '.' = false)
  rw [result_primary rfl, reference_none rfl, hnumeral, literal_none rfl, call_none hname,
    parenthesized_none rfl]
  rfl

theorem primary_none_of_step (step : WrittenStep) (hrest : AfterWritten rest) :
    (primary expr (step.text ++ rest)).result = none := by
  cases step with
  | self =>
    have hdigit : startsIn Char.isDigit rest = false := by
      refine startsIn_of_dropBlanks (fun c hc => ?_) (Begins.startsIn hrest (by decide))
      simp only [Text.isBlank, Bool.or_eq_true, beq_iff_eq] at hc
      rcases hc with ((rfl | rfl) | rfl) | rfl <;> rfl
    exact primary_none_of_point hdigit
  | parent => exact @primary_none_of_point ('.' :: rest) expr rfl
  | full axis test predicates =>
    have hafter := afterTest_predicates predicates hrest
    rw [text_append_full]
    cases axis with
    | named axis before after =>
      have hnone := fun s => @primary_axis expr s axis before.val before.property
      simpa [WrittenAxis.text] using hnone (after.val ++ (test.text ++
        (predicates.flatMap WrittenPredicate.text ++ rest)))
    | atSign after => exact primary_none rfl (by decide : beginsPrimary '@' = false)
    | omitted => exact primary_none_of_test test hafter

/-! ## Paths -/

variable {segments : List Segment}

theorem pathExpr_context (first : WrittenStep)
    (hn : (first.text ++ (segments.flatMap Segment.text ++ rest)).length ≤ n)
    (hrest : rest.dropWhile Text.isBlank = []) :
    (pathExpr (exprWithin n) (first.text ++ (segments.flatMap Segment.text ++ rest))).result =
      some (.path .context (first.step :: segments.flatMap Segment.steps), []) := by
  have hafter := afterWritten_segments segments hrest
  obtain ⟨hblank, hslash, -⟩ := @writtenStep_head (segments.flatMap Segment.text ++ rest) first
  have hlength : (segments.flatMap Segment.text ++ rest).length ≤ n := by
    rw [List.length_append] at hn
    omega
  obtain ⟨mid, hstep, hmid⟩ := writtenStep_reads first hn hafter
  obtain ⟨final, hmore, hfinal⟩ := segments_read segments hmid hlength hrest
  have hread := pathExpr_of_locationPath hblank (primary_none_of_step first hafter)
    (result_locationPath (result_pathStart_context hslash hstep) hmore)
  rwa [hfinal] at hread

/-- At the start the double separator is a word of its own. -/
theorem pathExpr_root (segment : Segment)
    (hn : (segment.text ++ (segments.flatMap Segment.text ++ rest)).length ≤ n)
    (hrest : rest.dropWhile Text.isBlank = []) :
    (pathExpr (exprWithin n) ((segment.text ++
      (segments.flatMap Segment.text ++ rest)).dropWhile Text.isBlank)).result =
      some (.path .root (segment.steps ++ segments.flatMap Segment.steps), []) := by
  obtain ⟨hblank, hslash, -⟩ :=
    @writtenStep_head (segments.flatMap Segment.text ++ rest) segment.step
  have hlength : (segment.step.text ++ (segments.flatMap Segment.text ++ rest)).length ≤ n ∧
      (segments.flatMap Segment.text ++ rest).length ≤ n := by
    have hstep := length_step_le segment
    simp only [List.length_append] at hn ⊢
    omega
  obtain ⟨mid, hstep, hmid⟩ := writtenStep_reads segment.step hlength.1
    (afterWritten_segments segments hrest)
  obtain ⟨final, hmore, hfinal⟩ := segments_read segments hmid hlength.2 hrest
  have hskip : (step (exprWithin n) ((segment.after.val ++ (segment.step.text ++
      (segments.flatMap Segment.text ++ rest))).dropWhile Text.isBlank)).result =
      some (segment.step.step, mid) := by
    rwa [dropBlanks_blanks, dropBlanks_eq_self hblank]
  have hstart : (pathStart (exprWithin n) ((segment.text ++
      (segments.flatMap Segment.text ++ rest)).dropWhile Text.isBlank)).result =
      some ((.root, segment.steps), mid) := by
    rw [segment_head, Segment.steps]
    cases segment.double with
    | true => exact result_pathStart_double hskip
    | false =>
      have hafter := startsIn_blanks segment.after.property (beq_eq_false_of_class rfl) hslash
      exact result_pathStart_step hafter hskip
  have hprimary : (primary (exprWithin n) ((segment.text ++
      (segments.flatMap Segment.text ++ rest)).dropWhile Text.isBlank)).result = none := by
    rw [segment_head]
    exact primary_slash
  have hread := pathExpr_of_locationPath (startsIn_dropWhile _) hprimary
    (result_locationPath hstart hmore)
  rwa [hfinal] at hread

theorem steps_ne_nil (hne : segments ≠ []) : segments.flatMap Segment.steps ≠ [] := by
  obtain ⟨segment, more, rfl⟩ := List.exists_cons_of_ne_nil hne
  rw [List.flatMap_cons, Segment.steps]
  split <;> exact List.cons_ne_nil _ _

theorem pathExpr_nodes (start : Enclosed) (hne : segments ≠ [])
    (hn : ('(' :: (start.text ++ ')' :: (segments.flatMap Segment.text ++ rest))).length ≤ n)
    (hrest : rest.dropWhile Text.isBlank = []) :
    (pathExpr (exprWithin n)
      ('(' :: (start.text ++ ')' :: (segments.flatMap Segment.text ++ rest)))).result =
      some (.path (.nodes start.expr) (segments.flatMap Segment.steps), []) := by
  have hlength : (segments.flatMap Segment.text ++ rest).length ≤ n := by
    simp only [List.length_append, List.length_cons] at hn ⊢
    omega
  obtain ⟨mid, hread, hmid⟩ := enclosed_reads start (Nat.lt_of_succ_le hn) rfl
  have hprimary := primary_parenthesized hread hmid
  have hsquare : startsIn (· == '[')
      ((segments.flatMap Segment.text ++ rest).dropWhile Text.isBlank) = false :=
    Begins.startsIn (afterWritten_segments segments hrest) (by decide)
  obtain ⟨final, hmore, hfinal⟩ := segments_read segments dropBlanks_dropBlanks hlength hrest
  rw [← dropBlanks_dropBlanks] at hsquare
  have hpath := result_filterPath hprimary (result_many_nil (predicate_none hsquare)) hmore
  have hread := pathExpr_of_filterPath rfl hpath
  have hsteps : (segments.flatMap Segment.steps).isEmpty = false :=
    List.isEmpty_eq_false_iff.mpr (steps_ne_nil hne)
  rwa [hfinal, hsteps] at hread

end XPath.Parser

namespace XPath.Grammar

/-! ## Expansion keeps the meaning -/

variable (reword : Rewording)

theorem WrittenAxis.axis_expanded (axis : WrittenAxis) : axis.expanded.axis = axis.axis := by
  cases axis <;> rfl

theorem WrittenStep.step_expanded (step : WrittenStep) :
    (step.expanded reword).step = step.step := by
  cases step with
  | full axis test predicates =>
    simp only [WrittenStep.expanded, WrittenStep.step, WrittenAxis.axis_expanded, List.map_map]
    congr 1
    exact List.map_congr_left fun predicate _ => reword.property predicate.condition
  | self => rfl
  | parent => rfl

theorem WrittenStep.isExpanded_expanded (step : WrittenStep) :
    (step.expanded reword).IsExpanded := by
  cases step with
  | full axis test predicates => cases axis <;> trivial
  | self => trivial
  | parent => trivial

theorem Segment.steps_expanded (segment : Segment) :
    (segment.expanded reword).flatMap Segment.steps = segment.steps := by
  obtain ⟨before, double, after, step⟩ := segment
  have hstep := step.step_expanded reword
  cases double with
  | true =>
    show [Step.toAny .descendantOrSelf, (step.expanded reword).step] = _
    rw [hstep]
    rfl
  | false =>
    show [(step.expanded reword).step] = _
    rw [hstep]
    rfl

theorem Segment.isExpanded_expanded (segment : Segment) :
    ∀ part ∈ segment.expanded reword, part.double = false ∧ part.step.IsExpanded := by
  have hstep := segment.step.isExpanded_expanded reword
  intro part hpart
  unfold Segment.expanded at hpart
  split at hpart
  · rcases List.mem_cons.mp hpart with rfl | hpart
    · exact ⟨rfl, trivial⟩
    · obtain rfl := List.mem_singleton.mp hpart
      exact ⟨rfl, hstep⟩
  · obtain rfl := List.mem_singleton.mp hpart
    exact ⟨rfl, hstep⟩

theorem WrittenStart.start_expanded (start : WrittenStart) :
    (start.expanded reword).start = start.start := by
  cases start with
  | context first => rfl
  | root => rfl
  | nodes start => exact congrArg Start.nodes (reword.property start)

theorem WrittenStart.steps_expanded (start : WrittenStart) :
    (start.expanded reword).steps = start.steps := by
  cases start with
  | context first => exact congrArg (fun step => [step]) (first.step_expanded reword)
  | root => rfl
  | nodes start => rfl

theorem WrittenPath.expr_expanded (path : WrittenPath) :
    (path.expanded reword).expr = path.expr := by
  have hsegments : (path.expanded reword).segments.flatMap Segment.steps =
      path.segments.flatMap Segment.steps := by
    show (path.segments.flatMap (Segment.expanded reword)).flatMap Segment.steps = _
    rw [List.flatMap_assoc, funext (Segment.steps_expanded reword)]
  unfold WrittenPath.expr
  rw [hsegments]
  show Expr.path (path.start.expanded reword).start ((path.start.expanded reword).steps ++ _) = _
  rw [WrittenStart.start_expanded, WrittenStart.steps_expanded]

theorem WrittenPath.isExpanded_expanded (path : WrittenPath) :
    (path.expanded reword).IsExpanded := by
  refine ⟨?_, fun part hpart => ?_⟩
  · show (path.start.expanded reword).IsExpanded
    cases path.start with
    | context first => exact first.isExpanded_expanded reword
    | root => trivial
    | nodes start => trivial
  · obtain ⟨segment, -, hpart⟩ := List.mem_flatMap.mp hpart
    exact segment.isExpanded_expanded reword part hpart

end XPath.Grammar

namespace XPath
open XPath.Parser XPath.Grammar

/-! ## Whole texts -/

theorem parse_written (path : WrittenPath) :
    Expr.parse (String.ofList path.text) = .ok path.expr := by
  obtain ⟨front, start, segments, back, isLong⟩ := path
  have hback : back.val.dropWhile Text.isBlank = [] := List.dropWhile_eq_nil_iff.mpr back.property
  have hlength : (start.text ++ (segments.flatMap Segment.text ++ back.val)).length ≤
      (WrittenPath.text ⟨front, start, segments, back, isLong⟩).length := by
    unfold WrittenPath.text
    rw [@List.length_append _ front.val]
    exact Nat.le_add_left _ _
  have hstops : Stops [] := by rintro c ⟨⟩
  refine parse_eq_ok_iff.mpr ⟨[], ?_, by simp⟩
  rw [String.toList_ofList]
  show (exprWithin (_ + 1) (front.val ++ (start.text ++ _))).result = _
  generalize (WrittenPath.text ⟨front, start, segments, back, isLong⟩).length = n at hlength ⊢
  rw [(skipsBlanks_exprWithin _).append front.property]
  cases start with
  | context first =>
    obtain ⟨hblank, -, hsign⟩ :=
      @writtenStep_head (segments.flatMap Segment.text ++ back.val) first
    refine orExpr_of_pathExpr (spaced_char_none ?_) (pathExpr_context first hlength hback) hstops
    rwa [WrittenStart.text, dropBlanks_eq_self hblank]
  | root =>
    obtain ⟨segment, more, rfl⟩ := List.exists_cons_of_ne_nil
      (isLong.resolve_left fun hne => hne rfl)
    have htext : WrittenStart.root.text ++ ((segment :: more).flatMap Segment.text ++ back.val) =
        segment.text ++ (more.flatMap Segment.text ++ back.val) := by simp [WrittenStart.text]
    rw [htext] at hlength ⊢
    rw [skipsBlanks_exprWithin]
    refine orExpr_of_pathExpr (spaced_char_none ?_) (pathExpr_root segment hlength hback) hstops
    rw [dropBlanks_dropBlanks, segment_head]
    rfl
  | nodes start =>
    have hne : segments ≠ [] := isLong.resolve_left fun hne => hne rfl
    have htext : (WrittenStart.nodes start).text ++ (segments.flatMap Segment.text ++ back.val) =
        '(' :: (start.text ++ ')' :: (segments.flatMap Segment.text ++ back.val)) := by
      simp [WrittenStart.text]
    rw [htext] at hlength ⊢
    exact orExpr_of_pathExpr (spaced_char_none rfl) (pathExpr_nodes start hne hlength hback) hstops

/-- A path means what it means with its abbreviations expanded. -/
theorem parse_expanded (path : WrittenPath) (reword : Rewording) :
    Expr.parse (String.ofList path.text) = .ok path.expr ∧
      Expr.parse (String.ofList (path.expanded reword).text) = .ok path.expr ∧
      (path.expanded reword).IsExpanded := by
  refine ⟨parse_written path, ?_, path.isExpanded_expanded reword⟩
  rw [parse_written, path.expr_expanded reword]

/-- A path with a start in parentheses, a double slash, a predicate and an attribute. What stands in
the brackets is expanded, too. -/
theorem parse_expanded_of_predicate :
    let text := " (..)//a[..]/ @k"
    let expanded :=
      " (parent::node())/descendant-or-self::node()/child::a[parent::node()]/ attribute::k"
    let up : Expr := .path .context [.toAny .parent]
    ∃ (path : WrittenPath) (reword : Rewording),
      String.ofList path.text = text ∧ String.ofList (path.expanded reword).text = expanded ∧
      Expr.parse text = .ok path.expr ∧ Expr.parse expanded = .ok path.expr ∧
      path.expr = .path (.nodes up) [.toAny .descendantOrSelf,
        .mk .child (.name (.plain "a")) [up], .mk .attribute (.name (.plain "k")) []] := by
  intro text expanded up
  -- What stands in the brackets is a path as well, and its expansion is another text for it.
  let upward : WrittenPath := ⟨noBlanks, .context .parent, [], noBlanks, .inl (by decide)⟩
  obtain ⟨hshort, hlong, -⟩ := parse_expanded upward ⟨id, fun _ => rfl⟩
  let short : Enclosed := ⟨upward.text, up, hshort, by decide⟩
  let long : Enclosed := ⟨(upward.expanded ⟨id, fun _ => rfl⟩).text, up, hlong, by decide⟩
  have hreword : ∀ inner : Enclosed,
      (if inner.text = short.text then long else inner).expr = inner.expr := by
    intro inner
    split
    · next htext =>
      have hparses := inner.parses
      rw [htext] at hparses
      exact Except.ok.inj (hshort.symm.trans hparses)
    · rfl
  let a : WrittenTest := .name (.plain "a") (isProperName_plain (by decide))
  let k : WrittenTest := .name (.plain "k") (isProperName_plain (by decide))
  let space : Blanks := ⟨[' '], by decide⟩
  let path : WrittenPath := ⟨space, .nodes short,
    [⟨noBlanks, true, noBlanks, .full .omitted a [⟨noBlanks, short⟩]⟩,
      ⟨noBlanks, false, space, .full (.atSign noBlanks) k []⟩], noBlanks, .inr (by simp)⟩
  have htext : String.ofList path.text = text := rfl
  have hexpanded : String.ofList (path.expanded ⟨_, hreword⟩).text = expanded := rfl
  obtain ⟨hparse, hparse', -⟩ := parse_expanded path ⟨_, hreword⟩
  rw [htext] at hparse
  rw [hexpanded] at hparse'
  exact ⟨path, ⟨_, hreword⟩, htext, hexpanded, hparse, hparse', rfl⟩

end XPath
