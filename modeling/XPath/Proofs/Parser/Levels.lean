import XPath.Proofs.Parser.Reading
/-! What primary expressions and the levels of operators read. On every level an operand is read by
the level below, so an expression climbs from the level that it belongs to up to the loosest one, as
long as the operators of the levels on the way are stuck at what follows. -/
namespace XPath.Parser
set_option autoImplicit false

open Grammar

variable {expr : Parser Expr} {e : Expr} {s mid rest : List Char} {c : Char}

/-! ## First characters -/

/-- The characters that a primary expression can begin with. -/
def beginsPrimary (c : Char) : Bool :=
  c == '$' || c.isDigit || c == '.' || isQuote c || isNameStart c || c == '('

theorem startsIn_of_imp {cls cls' : Char → Bool} (h : startsIn cls s = true)
    (himp : ∀ c, cls c = true → cls' c = true) : startsIn cls' s = true := by
  cases s with
  | nil => cases h
  | cons c s => exact himp c h

theorem startsIn_disjoint {cls cls' : Char → Bool} (h : startsIn cls s = true)
    (hcls : ∀ c, cls c = true → cls' c = false) : startsIn cls' s = false := by
  cases s with
  | nil => rfl
  | cons c s => exact hcls c h

theorem isNameStart_eq_false_of_isDigit (h : c.isDigit = true) : isNameStart c = false := by
  have hdigits : ∀ n ∈ List.range' 48 10, isNameStart (Char.ofNat n) = false := by decide
  have hrange : c.toNat ∈ List.range' 48 10 := by
    simp only [Char.isDigit, Bool.and_eq_true, decide_eq_true_eq, UInt32.le_iff_toNat_le] at h
    simp only [List.mem_range'_1]
    exact ⟨h.1, Nat.lt_succ_of_le h.2⟩
  have hfalse := hdigits c.toNat hrange
  rwa [Char.ofNat_toNat] at hfalse

theorem ne_of_class (cls : Char → Bool) {ds : List Char} (h : cls c = true)
    (hds : ∀ d ∈ ds, cls d = false) : ∀ d ∈ ds, c ≠ d := by
  rintro d hd rfl
  rw [hds c hd] at h
  cases h

theorem isBlank_eq_false (cls : Char → Bool) (h : cls c = true)
    (hds : ∀ d ∈ [' ', '\t', '\r', '\n'], cls d = false) : Text.isBlank c = false := by
  have hne := ne_of_class cls h hds
  simp [Text.isBlank, hne]

theorem nonblank_of_isNameStart (h : startsIn isNameStart s = true) :
    startsIn Text.isBlank s = false :=
  startsIn_disjoint h fun _ hc => isBlank_eq_false isNameStart hc (by decide)

/-- Names begin like no other primary expression. -/
theorem other_of_isNameStart (h : isNameStart c = true) :
    c.isDigit = false ∧ ∀ d ∈ ['$', '.', '\'', '"', '('], c ≠ d := by
  have hnone : ∀ d ∈ ['$', '.', '\'', '"', '('], isNameStart d = false := by decide
  refine ⟨Bool.eq_false_iff.mpr fun hdigit => ?_, ne_of_class isNameStart h hnone⟩
  rw [isNameStart_eq_false_of_isDigit hdigit] at h
  cases h

theorem other_of_beginsPrimary (h : beginsPrimary c = true) :
    Text.isBlank c = false ∧ c ≠ '-' :=
  ⟨isBlank_eq_false beginsPrimary h (by decide),
    @ne_of_class c beginsPrimary ['-'] h (by decide) '-' (by simp)⟩

theorem dropBlanks_dropBlanks :
    (s.dropWhile Text.isBlank).dropWhile Text.isBlank = s.dropWhile Text.isBlank :=
  dropBlanks_eq_self (startsIn_dropWhile _)

/-! ## Primary expressions -/

theorem reference_none (h : startsIn (· == '$') s = false) : (reference s).result = none := by
  unfold reference
  rw [result_bind, result_char_none.mpr h]
  rfl

theorem call_none (h : startsIn isNameStart s = false) : (call expr s).result = none := by
  unfold call
  rw [result_bind, qualifiedName_none h]
  rfl

/-- A name is no call if no parenthesis follows it, or if it is the name of a node type. -/
theorem call_none_of_name {name : String} (h : (qualifiedName s).result = some (name, mid))
    (hno : startsIn (· == '(') (mid.dropWhile Text.isBlank) = false ∨ name ∈ Parser.nodeTypes) :
    (call expr s).result = none := by
  unfold call
  rw [result_bind, h, Option.bind_some, result_bind, result_peek]
  rcases hno with hround | htype
  · rw [spaced_char_none hround]
    rfl
  · cases (spaced (char '(') mid).result with
    | none => rfl
    | some found => simp [htype, fail]

theorem parenthesized_none (h : startsIn (· == '(') s = false) :
    (parenthesized expr s).result = none := by
  unfold parenthesized
  rw [result_bind, result_char_none.mpr h]
  rfl

theorem result_primary (hs : startsIn Text.isBlank s = false) :
    (primary expr s).result = ((reference s).result.or
      (((numeral s).result.map fun found => (Expr.number found.1, found.2)).or
        (((literal s).result.map fun found => (Expr.literal found.1, found.2)).or
          ((call expr s).result.or (parenthesized expr s).result)))).map
      fun found => (found.1, found.2.dropWhile Text.isBlank) := by
  simp [primary, dropBlanks_eq_self hs]

theorem primary_none (hs : startsIn Text.isBlank s = false) (h : startsIn beginsPrimary s = false) :
    (primary expr s).result = none := by
  have hreference : (reference s).result = none :=
    reference_none (startsIn_imp h (by simp +contextual [beginsPrimary]))
  have hnumeral : (numeral s).result = none :=
    numeral_none (startsIn_imp h (by simp +contextual [beginsPrimary]))
      (startsIn_imp h (by simp +contextual [beginsPrimary]))
  have hliteral : (literal s).result = none :=
    literal_none (startsIn_imp h (by simp +contextual [beginsPrimary]))
  have hcall : (call expr s).result = none :=
    call_none (startsIn_imp h (by simp +contextual [beginsPrimary]))
  have hparenthesized : (parenthesized expr s).result = none :=
    parenthesized_none (startsIn_imp h (by simp +contextual [beginsPrimary]))
  rw [result_primary hs, hreference, hnumeral, hliteral, hcall, hparenthesized]
  rfl

theorem primary_slash : (primary expr ('/' :: s)).result = none := by
  have hslash : startsIn beginsPrimary ('/' :: s) = false :=
    (by decide : beginsPrimary '/' = false)
  exact primary_none rfl hslash

theorem primary_reference {name : QName} (hname : IsProperName name)
    (hends : startsIn isNameChar rest = false) (hcolon : startsIn (· == ':') rest = false) :
    (primary expr ('$' :: (name.text.toList ++ rest))).result =
      some (.reference name.text, rest.dropWhile Text.isBlank) := by
  have hdollar : (char '$' ('$' :: (name.text.toList ++ rest))).result =
      some ('$', name.text.toList ++ rest) := result_char.mpr ⟨rfl, rfl⟩
  rw [result_primary rfl, reference, result_bind, hdollar]
  simp [result_qualifiedName hname hends hcolon]

theorem primary_number {value : Number} (h : (numeral s).result = some (value, rest)) :
    (primary expr s).result = some (.number value, rest.dropWhile Text.isBlank) := by
  have hbegins : startsIn (fun c => c.isDigit || c == '.') s = true := by
    refine Bool.not_eq_false _ |>.mp fun hs => ?_
    rw [numeral_none (startsIn_imp hs (by simp +contextual)) (startsIn_imp hs (by simp))] at h
    cases h
  have hblank : startsIn Text.isBlank s = false :=
    startsIn_disjoint hbegins fun c hc =>
      isBlank_eq_false (fun c => c.isDigit || c == '.') hc (by decide)
  have hdollar : startsIn (· == '$') s = false :=
    startsIn_disjoint hbegins (beq_eq_false_of_class (by decide))
  rw [result_primary hblank, reference_none hdollar, h]
  rfl

theorem primary_literal {text : String} (h : (literal s).result = some (text, rest)) :
    (primary expr s).result = some (.literal text, rest.dropWhile Text.isBlank) := by
  obtain ⟨quote, rfl | rfl, hmem, rfl⟩ := result_literal.mp h
  all_goals
    rw [result_primary rfl, reference_none rfl, numeral_none rfl rfl, h]
    rfl

theorem primary_parenthesized (h : (expr s).result = some (e, mid))
    (hmid : mid.dropWhile Text.isBlank = ')' :: rest) :
    (primary expr ('(' :: s)).result = some (e, rest.dropWhile Text.isBlank) := by
  have hclose : (char ')' (')' :: rest)).result = some (')', rest) := result_char.mpr ⟨rfl, rfl⟩
  have hopen : (char '(' ('(' :: s)).result = some ('(', s) := result_char.mpr ⟨rfl, rfl⟩
  have hname : startsIn isNameStart ('(' :: s) = false :=
    (by decide : isNameStart '(' = false)
  have hread : (parenthesized expr ('(' :: s)).result =
      some (e, rest.dropWhile Text.isBlank) := by
    unfold parenthesized
    rw [result_bind, hopen, Option.bind_some, result_bind, h, Option.bind_some, result_bind,
      result_spaced, hmid, hclose]
    rfl
  rw [result_primary rfl, reference_none rfl, numeral_none rfl rfl, literal_none rfl,
    call_none hname, hread]
  simp [dropBlanks_dropBlanks]

/-- A primary expression that begins with a name is a call or none. -/
theorem primary_eq_call (h : startsIn isNameStart s = true) :
    (primary expr s).result =
      (call expr s).result.map fun found => (found.1, found.2.dropWhile Text.isBlank) := by
  have hblank : startsIn Text.isBlank s = false := nonblank_of_isNameStart h
  have hreference : (reference s).result = none := by
    refine reference_none (startsIn_disjoint h fun c hc => ?_)
    simpa using (other_of_isNameStart hc).2 '$' (by simp)
  have hnumeral : (numeral s).result = none := by
    refine numeral_none (startsIn_disjoint h fun c hc => (other_of_isNameStart hc).1)
      (startsIn_disjoint h fun c hc => ?_)
    simpa using (other_of_isNameStart hc).2 '.' (by simp)
  have hliteral : (literal s).result = none := by
    refine literal_none (startsIn_disjoint h fun c hc => ?_)
    have hne := (other_of_isNameStart hc).2
    simp [isQuote, hne]
  have hparenthesized : (parenthesized expr s).result = none := by
    refine parenthesized_none (startsIn_disjoint h fun c hc => ?_)
    simpa using (other_of_isNameStart hc).2 '(' (by simp)
  rw [result_primary hblank, hreference, hnumeral, hliteral, hparenthesized]
  simp

theorem startsIn_simpleName {w : List Char} (h : IsSimpleName w) :
    startsIn isNameStart (w ++ rest) = true := by
  obtain ⟨first, more, rfl, hfirst, -⟩ := h
  exact hfirst

theorem startsIn_properName {name : QName} (hname : IsProperName name) :
    startsIn isNameStart (name.text.toList ++ rest) = true := by
  obtain ⟨qualifier, localPart⟩ := name
  cases qualifier with
  | none => exact startsIn_simpleName hname.2
  | some qualifier => simpa [QName.text] using startsIn_simpleName (hname.1 qualifier rfl)

theorem primary_call {name : QName} {args : List Expr} (hname : IsProperName name)
    (htype : name.text ∉ nodeTypes)
    (h : (separated (spaced (char ',')) expr s).result = some (args, ')' :: rest)) :
    (primary expr (name.text.toList ++ '(' :: s)).result =
      some (.call name.text args, rest.dropWhile Text.isBlank) := by
  have hround : isNameChar '(' = false := by decide
  have hqualified : (qualifiedName (name.text.toList ++ '(' :: s)).result =
      some (name.text, '(' :: s) := result_qualifiedName hname hround rfl
  have hopen : (char '(' ('(' :: s)).result = some ('(', s) := result_char.mpr ⟨rfl, rfl⟩
  have hpeek : (peek (spaced (char '(')) ('(' :: s)).result = some ('(', '(' :: s) := by
    rw [result_peek, result_spaced_char rfl]
    rfl
  have hread : (call expr (name.text.toList ++ '(' :: s)).result =
      some (.call name.text args, rest.dropWhile Text.isBlank) := by
    unfold call
    rw [result_bind, hqualified, Option.bind_some, result_bind, hpeek, Option.bind_some]
    have hblanks : ('(' :: s).dropWhile Text.isBlank = '(' :: s := rfl
    have hend : (')' :: rest).dropWhile Text.isBlank = ')' :: rest := rfl
    have hclose : (char ')' (')' :: rest)).result = some (')', rest) := result_char.mpr ⟨rfl, rfl⟩
    simp [htype, hblanks, hopen, h, hend, hclose]
  rw [primary_eq_call (startsIn_properName hname), hread]
  simp [dropBlanks_dropBlanks]

theorem primary_none_of_name {name : String} (hs : startsIn isNameStart s = true)
    (h : (qualifiedName s).result = some (name, mid))
    (hno : startsIn (· == '(') (mid.dropWhile Text.isBlank) = false ∨ name ∈ Parser.nodeTypes) :
    (primary expr s).result = none := by
  rw [primary_eq_call hs, call_none_of_name h hno]
  rfl

/-- The name of an axis is no function, since no parenthesis follows. -/
theorem primary_axis (axis : Axis) {w : List Char} (hw : ∀ c ∈ w, Text.isBlank c = true) :
    (primary expr (axis.name.toList ++ (w ++ ':' :: ':' :: s))).result = none := by
  have hends : startsIn isNameChar (w ++ ':' :: ':' :: s) = false :=
    startsIn_blanks hw (fun _ => isNameChar_eq_false_of_isBlank)
      (by decide : isNameChar ':' = false)
  have hround : startsIn (· == '(') ((w ++ ':' :: ':' :: s).dropWhile Text.isBlank) = false := by
    rw [List.dropWhile_append_of_pos hw]
    rfl
  refine primary_none_of_name (startsIn_simpleName (isSimpleName_axis axis))
    (qualifiedName_plain (isSimpleName_axis axis) hends fun after heq => ?_) (Or.inl hround)
  cases w with
  | nil =>
    rw [← (List.cons.inj heq).2]
    exact (by decide : isNameStart ':' = false)
  | cons c w =>
    obtain rfl : c = ':' := (List.cons.inj heq).1
    exact absurd (hw ':' List.mem_cons_self) (by decide)

/-! ## Paths -/

theorem result_filterPath {predicates : List Expr} {steps : List Step} {after : List Char}
    (hprimary : (primary expr s).result = some (e, mid))
    (hpredicates : (many (predicate expr) mid).result = some (predicates, after))
    (hsteps : (moreSteps expr after).result = some (steps, rest)) :
    (filterPath expr s).result =
      some (if steps.isEmpty then if predicates.isEmpty then e else .filter e predicates
        else .path (.nodes (if predicates.isEmpty then e else .filter e predicates)) steps,
        rest) := by
  simp [filterPath, hprimary, hpredicates, hsteps]

theorem pathExpr_of_filterPath (hs : startsIn Text.isBlank s = false)
    (h : (filterPath expr s).result = some (e, rest)) :
    (pathExpr expr s).result = some (e, rest.dropWhile Text.isBlank) := by
  simp [pathExpr, dropBlanks_eq_self hs, h]

/-- A primary expression alone, which neither a predicate nor a step follows. -/
theorem pathExpr_of_primary (hs : startsIn Text.isBlank s = false)
    (hprimary : (primary expr s).result = some (e, rest))
    (hrest : startsIn Text.isBlank rest = false)
    (hsquare : startsIn (· == '[') rest = false) (hslash : startsIn (· == '/') rest = false) :
    (pathExpr expr s).result = some (e, rest) := by
  rw [← dropBlanks_eq_self hrest] at hsquare hslash
  have hpath := result_filterPath hprimary (result_many_nil (predicate_none hsquare))
    (moreSteps_nil hslash)
  have hread := pathExpr_of_filterPath hs hpath
  rwa [dropBlanks_eq_self hrest] at hread

theorem pathExpr_of_locationPath (hs : startsIn Text.isBlank s = false)
    (hprimary : (primary expr s).result = none)
    (h : (locationPath expr s).result = some (e, rest)) :
    (pathExpr expr s).result = some (e, rest.dropWhile Text.isBlank) := by
  have hfilter : (filterPath expr s).result = none := by
    unfold filterPath
    rw [result_bind, hprimary]
    rfl
  simp [pathExpr, dropBlanks_eq_self hs, hfilter, h]

theorem result_locationPath {start : Start} {first more : List Step}
    (hstart : (pathStart expr s).result = some ((start, first), mid))
    (hmore : (moreSteps expr mid).result = some (more, rest)) :
    (locationPath expr s).result = some (.path start (first ++ more), rest) := by
  simp [locationPath, hstart, hmore]

/-! ## Levels of operators -/

/-- The parser of a level. -/
def levelOf (expr : Parser Expr) : Level → Parser Expr
  | .or => orExpr expr
  | .and => andExpr expr
  | .equality => equalityExpr expr
  | .relational => relationalExpr expr
  | .additive => additiveExpr expr
  | .multiplicative => multiplicativeExpr expr
  | .unary => unaryExpr expr
  | .union => unionExpr expr
  | .path => pathExpr expr

/-- How tightly the operators of a level bind. -/
def tightness : Level → Nat
  | .or => 0
  | .and => 1
  | .equality => 2
  | .relational => 3
  | .additive => 4
  | .multiplicative => 5
  | .unary => 6
  | .union => 7
  | .path => 8

theorem tightness_le_path (level : Level) : tightness level ≤ tightness .path := by
  cases level <;> decide

theorem tightness_operand {level : Level} (h : level ≠ .path) :
    tightness level.operand = tightness level + 1 := by
  cases level <;> first | rfl | exact absurd rfl h

/-- No operator of the level stands at the beginning of the text. -/
def NoOperator (level : Level) (s : List Char) : Prop :=
  (spaced (operatorOf level) s).result = none

/-- An operator with the operand that follows it. -/
def nextOperand (operand : Parser Expr) (op : Parser BinaryOp) : Parser (BinaryOp × Expr) := do
  let op ← spaced op
  return (op, ← operand)

theorem result_leftGrouped {operand : Parser Expr} {op : Parser BinaryOp}
    {more : List (BinaryOp × Expr)} (hfirst : (operand s).result = some (e, mid))
    (hmore : (many (nextOperand operand op) mid).result = some (more, rest)) :
    (leftGrouped operand op s).result =
      some (more.foldl (fun left (op, right) => .binary op left right) e, rest) := by
  unfold leftGrouped
  rw [result_bind, hfirst, Option.bind_some, result_bind]
  unfold nextOperand at hmore
  rw [hmore]
  rfl

theorem leftGrouped_alone {operand : Parser Expr} {op : Parser BinaryOp}
    (h : (operand s).result = some (e, rest)) (hop : (spaced op rest).result = none) :
    (leftGrouped operand op s).result = some (e, rest) := by
  refine result_leftGrouped h (result_many_nil ?_)
  unfold nextOperand
  rw [result_bind, hop]
  rfl

theorem result_unaryExpr (hsign : (spaced (char '-') s).result = none)
    (h : (unionExpr expr s).result = some (e, rest)) :
    (unaryExpr expr s).result = some (e, rest) := by
  unfold unaryExpr
  rw [result_bind, result_many_nil hsign, Option.bind_some, result_bind, h]
  rfl

theorem climb_one {level : Level} (hpath : level ≠ .path)
    (h : (levelOf expr level.operand s).result = some (e, rest))
    (hop : level ≠ .unary → NoOperator level rest)
    (hsign : level = .unary → (spaced (char '-') s).result = none) :
    (levelOf expr level s).result = some (e, rest) := by
  cases level with
  | path => exact absurd rfl hpath
  | unary => exact result_unaryExpr (hsign rfl) h
  | or => exact leftGrouped_alone h (hop (by decide))
  | and => exact leftGrouped_alone h (hop (by decide))
  | equality => exact leftGrouped_alone h (hop (by decide))
  | relational => exact leftGrouped_alone h (hop (by decide))
  | additive => exact leftGrouped_alone h (hop (by decide))
  | multiplicative => exact leftGrouped_alone h (hop (by decide))
  | union => exact leftGrouped_alone h (hop (by decide))

/-- From an inner level to an outer one. Only on the way past the level of signs does it matter that
no sign stands in front. -/
theorem climb {outer inner : Level} (hle : tightness outer ≤ tightness inner)
    (h : (levelOf expr inner s).result = some (e, rest))
    (hop : ∀ level, tightness level < tightness inner → tightness outer ≤ tightness level →
      NoOperator level rest)
    (hsign : 6 < tightness inner → (spaced (char '-') s).result = none) :
    (levelOf expr outer s).result = some (e, rest) := by
  induction hgap : tightness inner - tightness outer generalizing outer with
  | zero =>
    have heq : outer = inner := by
      have htight : tightness outer = tightness inner := by omega
      revert htight
      cases outer <;> cases inner <;> decide
    rwa [heq]
  | succ gap ih =>
    have hpath : outer ≠ .path := by
      rintro rfl
      have hmax := tightness_le_path inner
      omega
    have hoperand : tightness outer.operand = tightness outer + 1 := tightness_operand hpath
    have hinner := @ih outer.operand (by omega) (fun level hlt hge => hop level hlt (by omega))
      (by omega)
    refine climb_one hpath hinner (fun _ => hop outer (by omega) (Nat.le_refl _)) ?_
    rintro rfl
    refine hsign ?_
    have hsix : tightness .unary = 6 := rfl
    omega

/-! ## No expression -/

theorem leftGrouped_none {operand : Parser Expr} {op : Parser BinaryOp}
    (h : (operand s).result = none) : (leftGrouped operand op s).result = none := by
  unfold leftGrouped
  rw [result_bind, h]
  rfl

/-- The characters that an expression can begin with. -/
def beginsExpr (c : Char) : Bool := beginsPrimary c || beginsStep c || c == '/' || c == '-'

theorem exprWithin_none (hs : startsIn Text.isBlank s = false) (h : startsIn beginsExpr s = false)
    (n : Nat) : (exprWithin n s).result = none := by
  cases n with
  | zero => rfl
  | succ n =>
    have hslash : startsIn (· == '/') s = false :=
      startsIn_imp h (by simp +contextual [beginsExpr])
    have hstep : (step (exprWithin n) s).result = none :=
      step_none hs (startsIn_imp h (by simp +contextual [beginsExpr]))
    have hdouble : (word "//" s).result = none := word_none rfl hslash
    have hsingle : (word "/" s).result = none := word_none rfl hslash
    have hlocation : (locationPath (exprWithin n) s).result = none := by
      simp [locationPath, pathStart, result_optional, hdouble, hsingle, hstep]
    have hprimary : (primary (exprWithin n) s).result = none :=
      primary_none hs (startsIn_imp h (by simp +contextual [beginsExpr]))
    have hpath : (pathExpr (exprWithin n) s).result = none := by
      simp [pathExpr, dropBlanks_eq_self hs, filterPath, hprimary, hlocation]
    have hsign : (spaced (char '-') s).result = none := by
      refine spaced_char_none ?_
      rw [dropBlanks_eq_self hs]
      exact startsIn_imp h (by simp +contextual [beginsExpr])
    have hunary : (unaryExpr (exprWithin n) s).result = none := by
      have hunion : (unionExpr (exprWithin n) s).result = none := leftGrouped_none hpath
      unfold unaryExpr
      rw [result_bind, result_many_nil hsign, Option.bind_some, result_bind, hunion]
      rfl
    exact leftGrouped_none <| leftGrouped_none <| leftGrouped_none <| leftGrouped_none <|
      leftGrouped_none <| leftGrouped_none hunary

/-! ## Operators -/

/-- The first characters of the operators of a level. -/
def firstChars : Level → List Char
  | .or => ['o']
  | .and => ['a']
  | .equality => ['=', '!']
  | .relational => ['<', '&', '>']
  | .additive => ['+', '-']
  | .multiplicative => ['*', 'd', 'm']
  | .unary => []
  | .union => ['|']
  | .path => []

/-- Whether the token is written with one of the first characters of the level. -/
def beginsOperator (level : Level) : Token → Bool
  | .symbol text => startsIn (firstChars level).contains text.toList
  | .name name => startsIn (firstChars level).contains name.text.toList
  | _ => false

theorem beginsOperator_of_mem {level : Level} {token : Token} {op : BinaryOp}
    (h : (token, op) ∈ level.operators) : beginsOperator level token = true := by
  have hall : ∀ level : Level, ∀ entry ∈ level.operators,
      beginsOperator level entry.1 = true := by
    intro level
    cases level <;> decide
  exact hall level (token, op) h

theorem operatorOf_none {level : Level} (h : startsIn (firstChars level).contains s = false) :
    (operatorOf level s).result = none := by
  have happend : ∀ {w t : List Char}, startsIn (firstChars level).contains w = true →
      startsIn (firstChars level).contains (w ++ t) = true := by
    intro w t hw
    cases w with
    | nil => cases hw
    | cons c w => exact hw
  refine Option.eq_none_iff_forall_ne_some.mpr fun found hfound => ?_
  obtain ⟨token, hmem, hleads⟩ := exists_operator hfound
  have hbegins := beginsOperator_of_mem hmem
  cases token with
  | symbol text =>
    obtain ⟨-, rfl, -⟩ := hleads
    rw [happend hbegins] at h
    cases h
  | name name =>
    obtain ⟨-, rfl, -⟩ := hleads
    rw [happend hbegins] at h
    cases h
  | anyWith qualifier => cases hbegins
  | reference name => cases hbegins
  | literal text => cases hbegins
  | number value => cases hbegins

theorem noOperator_of_head {level : Level} (hs : startsIn Text.isBlank s = false)
    (h : startsIn (firstChars level).contains s = false) : NoOperator level s := by
  unfold NoOperator
  rw [result_spaced, dropBlanks_eq_self hs, operatorOf_none h]
  rfl

theorem noOperator_of_stops (h : Stops s) (level : Level) : NoOperator level s := by
  refine noOperator_of_head (h.startsIn (by decide)) (h.startsIn ?_)
  cases level <;> decide

theorem orExpr_of_pathExpr (hsign : (spaced (char '-') s).result = none)
    (h : (pathExpr expr s).result = some (e, rest)) (hrest : Stops rest) :
    (orExpr expr s).result = some (e, rest) :=
  @climb expr e s rest .or .path (by decide) h (fun level _ _ => noOperator_of_stops hrest level)
    fun _ => hsign

theorem takes_operatorOf (level : Level) : Takes (operatorOf level) := by
  have hnone : Takes (fail : Parser BinaryOp) := by rintro s found ⟨⟩
  cases level with
  | or => exact (Takes.keyword (by decide)).bind
  | and => exact (Takes.keyword (by decide)).bind
  | equality => exact .orElse (.spelling (by decide)) (.spelling (by decide))
  | relational =>
    refine .firstOf ?_
    simp only [List.forall_mem_cons]
    refine ⟨?_, ?_, ?_, ?_, ?_, ?_, ?_, ?_, by simp⟩
    all_goals exact .spelling (by decide)
  | additive => exact .orElse (.spelling (by decide)) (.spelling (by decide))
  | multiplicative =>
    refine .firstOf ?_
    simp only [List.forall_mem_cons]
    exact ⟨.spelling (by decide), (Takes.keyword (by decide)).bind,
      (Takes.keyword (by decide)).bind, by simp⟩
  | union => exact .spelling (by decide)
  | unary => exact hnone
  | path => exact hnone

/-- The level of an operator. -/
def levelOfOp : BinaryOp → Level
  | .or => .or
  | .and => .and
  | .compare .equal => .equality
  | .compare .notEqual => .equality
  | .compare _ => .relational
  | .arith .add => .additive
  | .arith .subtract => .additive
  | .arith _ => .multiplicative
  | .union => .union

theorem levelOfOp_ne_path (op : BinaryOp) : levelOfOp op ≠ .path := by
  cases op with
  | compare comparison => cases comparison <;> decide
  | arith arithmetic => cases arithmetic <;> decide
  | or => decide
  | and => decide
  | union => decide

/-- Every spelling of an operator is read where a blank follows it. -/
theorem result_operator {op : BinaryOp} {spelling : String} (h : spelling ∈ op.spellings)
    (hc : Text.isBlank c = true) :
    (operatorOf (levelOfOp op) (spelling.toList ++ c :: s)).result = some (op, c :: s) := by
  have hkeyword : ∀ text ∈ ["or", "and", "div", "mod"],
      (keyword text (text.toList ++ c :: s)).result = some ((), c :: s) := by
    intro text htext
    have hspace : startsIn isNameChar (c :: s) = false := isNameChar_eq_false_of_isBlank hc
    exact (result_keyword (isSimpleName_keyword text htext)).mpr
      ⟨isProperName_plain (isSimpleName_keyword text htext), rfl, hspace⟩
  simp only [Text.isBlank, Bool.or_eq_true, beq_iff_eq] at hc
  cases op with
  | or =>
    obtain rfl := List.mem_singleton.mp h
    simp only [levelOfOp, operatorOf, orOp, result_bind, hkeyword "or" (by simp)]
    rfl
  | and =>
    obtain rfl := List.mem_singleton.mp h
    simp only [levelOfOp, operatorOf, andOp, result_bind, hkeyword "and" (by simp)]
    rfl
  | compare comparison =>
    -- No longer symbol goes on with a blank.
    cases comparison <;> simp only [BinaryOp.spellings, List.mem_cons, List.not_mem_nil,
      or_false] at h
    case equal | notEqual => subst h; rfl
    all_goals rcases h with rfl | rfl <;> rcases hc with ((rfl | rfl) | rfl) | rfl <;> rfl
  | arith arithmetic =>
    cases arithmetic <;> obtain rfl := List.mem_singleton.mp h
    case divide =>
      have hstar : (spelling "*" (BinaryOp.arith .multiply) ("div".toList ++ c :: s)).result =
          none := rfl
      simp only [levelOfOp, operatorOf, multiplicativeOp, result_firstOf_cons, hstar, result_bind,
        hkeyword "div" (by simp)]
      rfl
    case modulo =>
      have hstar : (spelling "*" (BinaryOp.arith .multiply) ("mod".toList ++ c :: s)).result =
          none := rfl
      have hdiv : (keyword "div" ("mod".toList ++ c :: s)).result = none := rfl
      simp only [levelOfOp, operatorOf, multiplicativeOp, result_firstOf_cons, hstar, hdiv,
        result_bind, hkeyword "mod" (by simp)]
      rfl
    all_goals rfl
  | union =>
    obtain rfl := List.mem_singleton.mp h
    rfl

theorem beginsOperator_spelling {op : BinaryOp} {spelling : String} (h : spelling ∈ op.spellings) :
    startsIn (firstChars (levelOfOp op)).contains (spelling.toList ++ s) = true := by
  cases op with
  | compare comparison =>
    cases comparison <;> simp only [BinaryOp.spellings, List.mem_cons, List.not_mem_nil,
      or_false] at h
    case equal | notEqual => subst h; rfl
    all_goals rcases h with rfl | rfl <;> rfl
  | arith arithmetic => cases arithmetic <;> obtain rfl := List.mem_singleton.mp h <;> rfl
  | or => obtain rfl := List.mem_singleton.mp h; rfl
  | and => obtain rfl := List.mem_singleton.mp h; rfl
  | union => obtain rfl := List.mem_singleton.mp h; rfl

theorem levelOf_binary (op : BinaryOp) :
    levelOf expr (levelOfOp op) =
      leftGrouped (levelOf expr (levelOfOp op).operand) (operatorOf (levelOfOp op)) := by
  cases op with
  | compare comparison => cases comparison <;> rfl
  | arith arithmetic => cases arithmetic <;> rfl
  | or => rfl
  | and => rfl
  | union => rfl

/-- An operator begins neither with a blank nor as predicates and steps do, and operators of
different levels begin with different characters. -/
theorem other_of_operator {op : BinaryOp} {spelling : String} (h : spelling ∈ op.spellings) :
    startsIn Text.isBlank (spelling.toList ++ s) = false ∧
      startsIn (· == '[') (spelling.toList ++ s) = false ∧
      startsIn (· == '/') (spelling.toList ++ s) = false ∧
      ∀ level, tightness (levelOfOp op) < tightness level →
        startsIn (firstChars level).contains (spelling.toList ++ s) = false := by
  have hchars : ∀ inner : Level, ∀ c ∈ firstChars inner, Text.isBlank c = false ∧
      (c == '[') = false ∧ (c == '/') = false := by
    intro inner
    cases inner <;> decide
  have hlevels : ∀ outer inner : Level, tightness outer < tightness inner →
      ∀ c ∈ firstChars outer, (firstChars inner).contains c = false := by
    intro outer inner
    cases outer <;> cases inner <;> decide
  have hbegins : startsIn (firstChars (levelOfOp op)).contains (spelling.toList ++ s) = true :=
    beginsOperator_spelling h
  refine ⟨startsIn_disjoint hbegins fun c hc => ?_, startsIn_disjoint hbegins fun c hc => ?_,
    startsIn_disjoint hbegins fun c hc => ?_,
    fun level hlt => startsIn_disjoint hbegins fun c hc => ?_⟩
  all_goals rw [List.contains_iff_mem] at hc
  · exact (hchars _ c hc).1
  · exact (hchars _ c hc).2.1
  · exact (hchars _ c hc).2.2
  · exact hlevels _ level hlt c hc

/-- Two operands with an operator of the level between them. -/
theorem result_binary {op : BinaryOp} {left right : Expr} {spelling : String}
    (hspelling : spelling ∈ op.spellings)
    (hleft : (levelOf expr (levelOfOp op).operand s).result =
      some (left, spelling.toList ++ ' ' :: mid))
    (hmid : startsIn Text.isBlank mid = false)
    (hright : (levelOf expr (levelOfOp op).operand mid).result = some (right, rest))
    (hop : NoOperator (levelOfOp op) rest) :
    (levelOf expr (levelOfOp op) s).result = some (.binary op left right, rest) := by
  have hspaced : (spaced (operatorOf (levelOfOp op)) (spelling.toList ++ ' ' :: mid)).result =
      some (op, mid) := by
    have hblank : (' ' :: mid).dropWhile Text.isBlank = mid := dropBlanks_eq_self hmid
    rw [result_spaced, dropBlanks_eq_self (other_of_operator hspelling).1,
      result_operator hspelling rfl]
    simp only [Option.map_some, hblank]
  rw [levelOf_binary]
  -- One operator with its operand, and then no more.
  have hnext : (nextOperand (levelOf expr (levelOfOp op).operand) (operatorOf (levelOfOp op))
      (spelling.toList ++ ' ' :: mid)).result = some ((op, right), rest) := by
    unfold nextOperand
    rw [result_bind, hspaced, Option.bind_some, result_bind, hright]
    rfl
  have htakes : Takes (nextOperand (levelOf expr (levelOfOp op).operand)
      (operatorOf (levelOfOp op))) := (takes_operatorOf _).spaced.bind
  have hstuck : (nextOperand (levelOf expr (levelOfOp op).operand) (operatorOf (levelOfOp op))
      rest).result = none := by
    unfold nextOperand
    rw [result_bind, hop]
    rfl
  have hlength : [(op, right)].length ≤ (spelling.toList ++ ' ' :: mid).length := by
    simp only [List.length_append, List.length_cons, List.length_nil]
    omega
  exact result_leftGrouped hleft
    (result_many (.next hnext (htakes _ _ hnext) .stop) hlength hstuck)

end XPath.Parser
