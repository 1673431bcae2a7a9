import XPath.Grammar.Chain
import XPath.Proofs.Parser.WhiteSpace
/-! Chains of operators are read as the levels say. What a level reads of a chain is its first
group, and then it goes on in the text that follows: as a repetition of operators and operands,
whose left operand is the group. With nothing left to go on with, this is the tree of the whole
chain. -/
namespace XPath.Parser
set_option autoImplicit false

open Grammar

variable {n : Nat} {s t rest : List Char} {e : Expr} {level : Level} {first : Operand}
  {links : List Link} {expr : Parser Expr}

/-! ## Expressions in brackets -/

theorem mem_rtakeWhile_of_suffix {p : Char → Bool} (hsuffix : rest <:+ s)
    (hrest : ∀ c ∈ rest, p c = true) : ∀ c ∈ rest, c ∈ s.rtakeWhile p := by
  obtain ⟨front, rfl⟩ := hsuffix
  intro c hc
  unfold List.rtakeWhile
  rw [List.reverse_append, List.takeWhile_append_of_pos (by simpa using hrest)]
  simp [hc]

theorem enclosed_reads (inner : Enclosed) (hn : (inner.text ++ t).length < n)
    (ht : startsIn (fun c => c == ')' || c == ']') t = true) :
    ∃ mid, (exprWithin n (inner.text ++ t)).result = some (inner.expr, mid) ∧
      mid.dropWhile Text.isBlank = t := by
  obtain ⟨rest, hread, hspace⟩ := parse_eq_ok_iff.mp inner.parses
  rw [String.toList_ofList] at hread
  obtain ⟨-, hdrop⟩ := counts_exprWithin _ _ _ _ hread
  have hrest : ∀ c ∈ rest, Text.isBlank c = true := by
    have hsuffix : rest <:+ inner.text := hdrop ▸ List.drop_suffix _ _
    exact fun c hc => inner.ends c (mem_rtakeWhile_of_suffix hsuffix hspace c hc)
  refine ⟨rest ++ t, exists_exprWithin_append_closing hread hrest (Nat.lt_succ_self _) hn ht, ?_⟩
  rw [List.dropWhile_append_of_pos hrest]
  exact dropBlanks_eq_self (startsIn_disjoint ht fun c hc =>
    isBlank_eq_false (fun c => c == ')' || c == ']') hc (by decide))

/-! ## Operands -/

theorem pathExpr_enclosed (inner : Enclosed) (hn : (inner.text ++ ')' :: rest).length < n)
    (hsquare : startsIn (· == '[') (rest.dropWhile Text.isBlank) = false)
    (hslash : startsIn (· == '/') (rest.dropWhile Text.isBlank) = false) :
    (pathExpr (exprWithin n) ('(' :: (inner.text ++ ')' :: rest))).result =
      some (inner.expr, rest.dropWhile Text.isBlank) := by
  obtain ⟨mid, hread, hmid⟩ := enclosed_reads inner hn rfl
  exact pathExpr_of_primary rfl (primary_parenthesized hread hmid) (startsIn_dropWhile _) hsquare
    hslash

theorem unaryExpr_sign : (unaryExpr expr ('-' :: s)).result =
    (unaryExpr expr s).result.map fun found => (.negate found.1, found.2) := by
  have hsign : (spaced (char '-') ('-' :: s)).result = some ('-', s.dropWhile Text.isBlank) :=
    result_spaced_char rfl
  have hmany := result_many_step (Counts.char '-').spaced (Takes.char '-').spaced hsign
  rw [skipsBlanks_unaryExpr s]
  unfold unaryExpr
  rw [result_bind, result_bind, hmany]
  cases (many (spaced (char '-')) (s.dropWhile Text.isBlank)).result with
  | none => rfl
  | some found =>
    simp only [Option.map_some, Option.bind_some, result_bind]
    cases (unionExpr expr found.2).result <;> rfl

/-! ## Going on with a group -/

/-- The group is the left operand of whatever operators of the level follow. -/
def goOn (expr : Parser Expr) (level : Level) (e : Expr) (s : List Char) :
    Option (Expr × List Char) :=
  (many (nextOperand (levelOf expr level.operand) (operatorOf level)) s).result.map
    fun found => (found.1.foldl (fun left next => .binary next.1 left next.2) e, found.2)

theorem goOn_of_noOperator (h : NoOperator level s) : goOn expr level e s = some (e, s) := by
  have hstuck : (nextOperand (levelOf expr level.operand) (operatorOf level) s).result = none := by
    unfold nextOperand
    rw [result_bind, h]
    rfl
  unfold goOn
  rw [result_many_nil hstuck]
  rfl

theorem goOn_unary : goOn expr .unary e s = some (e, s) := goOn_of_noOperator (result_spaced _)

theorem goOn_path : goOn expr .path e s = some (e, s) := goOn_of_noOperator (result_spaced _)

theorem goOn_step (hexpr : Counts expr) {op : BinaryOp} {right : Expr} {mid : List Char}
    (h : (nextOperand (levelOf expr level.operand) (operatorOf level) s).result =
      some ((op, right), mid)) :
    goOn expr level e s = goOn expr level (.binary op e right) mid := by
  have hcounts : Counts (nextOperand (levelOf expr level.operand) (operatorOf level)) :=
    (counts_levelOf hexpr _).nextOperand level
  have htakes : Takes (nextOperand (levelOf expr level.operand) (operatorOf level)) :=
    (takes_operatorOf level).spaced.bind
  unfold goOn
  rw [result_many_step hcounts htakes h, Option.map_map]
  rfl

/-- What may follow a group of the level: no part of a path, and no operator that binds tighter. -/
structure Follows (level : Level) (rest : List Char) : Prop where
  square : startsIn (· == '[') rest = false
  slash : startsIn (· == '/') rest = false
  loose : ∀ inner, tightness level < tightness inner → NoOperator inner rest

theorem Follows.operand (h : Follows level rest) : Follows level.operand rest := by
  refine ⟨h.square, h.slash, fun inner hlt => h.loose inner (Nat.lt_of_le_of_lt ?_ hlt)⟩
  cases level <;> decide

theorem levelOfOp_of_mem {op : BinaryOp} (h : op ∈ level.operators.map Prod.snd) :
    levelOfOp op = level := by
  have hall : ∀ level : Level, ∀ op ∈ level.operators.map Prod.snd, levelOfOp op = level := by
    intro level
    cases level <;> decide
  exact hall level op h

theorem mem_operators (op : BinaryOp) : op ∈ (levelOfOp op).operators.map Prod.snd := by
  cases op with
  | compare comparison => cases comparison <;> decide
  | arith arithmetic => cases arithmetic <;> decide
  | or => decide
  | and => decide
  | union => decide

theorem follows_operator {op : BinaryOp} {spelling : String} (h : spelling ∈ op.spellings) :
    Follows (levelOfOp op) (spelling.toList ++ s) := by
  obtain ⟨hblank, hsquare, hslash, hlevels⟩ := other_of_operator (s := s) h
  exact ⟨hsquare, hslash, fun inner hlt => noOperator_of_head hblank (hlevels inner hlt)⟩

theorem goOn_of_operand (hlevel : level ≠ .path)
    (hsign : level = .unary → (spaced (char '-') s).result = none)
    (h : (levelOf expr level.operand s).result = some (e, rest)) :
    (levelOf expr level s).result = goOn expr level e rest := by
  have hgrouped : ∀ {operand : Parser Expr}, (operand s).result = some (e, rest) →
      (leftGrouped operand (operatorOf level) s).result =
        (many (nextOperand operand (operatorOf level)) rest).result.map
          fun found =>
            (found.1.foldl (fun left next => .binary next.1 left next.2) e, found.2) := by
    intro operand hoperand
    unfold leftGrouped
    rw [result_bind, hoperand, Option.bind_some, result_bind]
    unfold nextOperand
    cases (many _ rest).result <;> rfl
  cases level with
  | path => exact absurd rfl hlevel
  | unary =>
    rw [goOn_unary]
    exact result_unaryExpr (hsign rfl) h
  | or => exact hgrouped h
  | and => exact hgrouped h
  | equality => exact hgrouped h
  | relational => exact hgrouped h
  | additive => exact hgrouped h
  | multiplicative => exact hgrouped h
  | union => exact hgrouped h

/-! ## Groups are read -/

theorem operand_begins (operand : Operand) :
    startsIn Text.isBlank (operand.text ++ rest) = false ∧
      (operand.signs = [] → startsIn (· == '-') (operand.text ++ rest) = false) := by
  obtain ⟨signs, inner⟩ := operand
  cases signs with
  | nil => exact ⟨rfl, fun _ => rfl⟩
  | cons blanks signs => exact ⟨rfl, nofun⟩

theorem groups_unsigned (h : Groups level first links e) (hlevel : 6 < tightness level) :
    first.signs = [] := by
  induction h with
  | inner hsigns => exact hsigns
  | negate _ _ => exact absurd hlevel (by decide)
  | @operand level _ _ _ _ ih =>
    refine ih (Nat.lt_of_lt_of_le hlevel ?_)
    cases level <;> decide
  | binary _ _ _ ih _ => exact ih hlevel

theorem spaced_operator {op : BinaryOp} {spelling : String} (hspelling : spelling ∈ op.spellings)
    (after : Gap) (ht : startsIn Text.isBlank t = false) :
    (spaced (operatorOf (levelOfOp op)) (spelling.toList ++ (after.val ++ t))).result =
      some (op, t) := by
  obtain ⟨w, hne, hw⟩ := after
  obtain ⟨c, more, rfl⟩ := List.exists_cons_of_ne_nil hne
  have hdrop : (c :: (more ++ t)).dropWhile Text.isBlank = t := by
    rw [← List.cons_append, List.dropWhile_append_of_pos hw, dropBlanks_eq_self ht]
  rw [result_spaced, dropBlanks_eq_self (other_of_operator hspelling).1]
  show ((operatorOf (levelOfOp op)) (spelling.toList ++ c :: (more ++ t))).result.map _ = _
  rw [result_operator hspelling (hw c List.mem_cons_self), Option.map_some, hdrop]

/-- The induction is on the grouping; what follows the group is arbitrary, so that the left operand
of an operator can be read in front of that operator. -/
theorem levelOf_groups (h : Groups level first links e)
    (hn : (first.text ++ (links.flatMap Link.text ++ rest)).length ≤ n)
    (hrest : Follows level (rest.dropWhile Text.isBlank)) :
    (levelOf (exprWithin n) level (first.text ++ (links.flatMap Link.text ++ rest))).result =
      goOn (exprWithin n) level e (rest.dropWhile Text.isBlank) := by
  induction h generalizing rest with
  | @inner operand hsigns =>
    obtain ⟨signs, inner⟩ := operand
    obtain rfl : signs = [] := hsigns
    have htext : Operand.text ⟨[], inner⟩ ++ (([] : List Link).flatMap Link.text ++ rest) =
        '(' :: (inner.text ++ ')' :: rest) := by simp [Operand.text]
    rw [htext] at hn ⊢
    rw [goOn_path]
    exact pathExpr_enclosed inner (Nat.lt_of_succ_le hn) hrest.square hrest.slash
  | @negate blanks signs inner links e _ ih =>
    have htext : Operand.text ⟨blanks :: signs, inner⟩ ++ (links.flatMap Link.text ++ rest) =
        '-' :: (blanks.val ++ (Operand.text ⟨signs, inner⟩ ++
          (links.flatMap Link.text ++ rest))) := by simp [Operand.text, Operand.signText]
    rw [htext, List.length_cons, List.length_append] at hn
    have hinner := ih (by omega) hrest
    rw [goOn_unary] at hinner ⊢
    have hskip := (@skipsBlanks_unaryExpr (exprWithin n)).append
      (s := Operand.text ⟨signs, inner⟩ ++ (links.flatMap Link.text ++ rest)) blanks.property
    rw [htext]
    show (unaryExpr (exprWithin n) _).result = _
    rw [unaryExpr_sign, hskip]
    rw [show (unaryExpr (exprWithin n) _).result = _ from hinner]
    rfl
  | @operand level first links e h ih =>
    by_cases hlevel : level = .path
    · subst hlevel
      exact ih hn hrest
    have htight : tightness level < tightness level.operand := by
      rw [tightness_operand hlevel]
      exact Nat.lt_succ_self _
    have hinner := ih hn hrest.operand
    rw [goOn_of_noOperator (hrest.loose _ htight)] at hinner
    refine goOn_of_operand hlevel (fun hunary => ?_) hinner
    subst hunary
    obtain ⟨hblank, hsign⟩ := @operand_begins (links.flatMap Link.text ++ rest) first
    refine spaced_char_none ?_
    rw [dropBlanks_eq_self hblank]
    exact hsign (groups_unsigned h (by decide))
  | @binary level first before after link left right hop _ _ ihleft ihright =>
    have htext : (before ++ link :: after).flatMap Link.text ++ rest =
        before.flatMap Link.text ++ (link.text ++ (after.flatMap Link.text ++ rest)) := by simp
    obtain rfl := levelOfOp_of_mem hop
    have htight : tightness (levelOfOp link.op) < tightness (levelOfOp link.op).operand := by
      rw [tightness_operand (levelOfOp_ne_path _)]
      exact Nat.lt_succ_self _
    rw [htext] at hn ⊢
    -- Behind the left operand stands the operator, which is no part of it.
    have hdrop : (link.text ++ (after.flatMap Link.text ++ rest)).dropWhile Text.isBlank =
        link.spelling.toList ++ (link.after.val ++
          (link.operand.text ++ (after.flatMap Link.text ++ rest))) := by
      unfold Link.text
      rw [List.append_assoc, List.dropWhile_append_of_pos link.before.property.2]
      simp only [List.append_assoc]
      exact dropBlanks_eq_self (other_of_operator link.spelled).1
    have hleft := ihleft hn (by rw [hdrop]; exact follows_operator link.spelled)
    rw [hdrop] at hleft
    have hlength : (link.operand.text ++ (after.flatMap Link.text ++ rest)).length ≤ n := by
      have hlink : link.operand.text.length ≤ link.text.length := by
        unfold Link.text
        simp only [List.length_append]
        omega
      simp only [List.length_append] at hn ⊢
      omega
    have hright := ihright hlength hrest.operand
    rw [goOn_of_noOperator (hrest.loose _ htight)] at hright
    have hnext : (nextOperand (levelOf (exprWithin n) (levelOfOp link.op).operand)
        (operatorOf (levelOfOp link.op)) (link.spelling.toList ++ (link.after.val ++
          (link.operand.text ++ (after.flatMap Link.text ++ rest))))).result =
        some ((link.op, right), rest.dropWhile Text.isBlank) := by
      unfold nextOperand
      rw [result_bind, spaced_operator link.spelled link.after (operand_begins link.operand).1,
        Option.bind_some, result_bind, hright]
      rfl
    rw [hleft, goOn_step (counts_exprWithin n) hnext]

/-! ## Every chain groups -/

theorem exists_last {α : Type} {P : α → Prop} {l : List α} (h : ∃ a ∈ l, P a) :
    ∃ before a after, l = before ++ a :: after ∧ P a ∧ ∀ b ∈ after, ¬ P b := by
  induction l with
  | nil =>
    obtain ⟨a, ha, -⟩ := h
    cases ha
  | cons a l ih =>
    by_cases hl : ∃ b ∈ l, P b
    · obtain ⟨before, b, after, rfl, hb, hafter⟩ := ih hl
      exact ⟨a :: before, b, after, rfl, hb, hafter⟩
    · have hnone : ∀ b ∈ l, ¬ P b := fun b hb hP => hl ⟨b, hb, hP⟩
      obtain ⟨b, hb, hP⟩ := h
      rcases List.mem_cons.mp hb with rfl | hb
      · exact ⟨[], b, l, rfl, hP, hnone⟩
      · exact absurd hP (hnone b hb)

theorem tightness_levelOfOp (op : BinaryOp) :
    tightness (levelOfOp op) ≤ 7 ∧ tightness (levelOfOp op) ≠ 6 ∧
      (tightness (levelOfOp op) = 7 → op = .union) := by
  cases op with
  | compare comparison => cases comparison <;> decide
  | arith arithmetic => cases arithmetic <;> decide
  | or => decide
  | and => decide
  | union => decide

theorem eq_of_tightness_eq {level level' : Level} (h : tightness level = tightness level') :
    level = level' := by
  revert h
  cases level <;> cases level' <;> decide

/-- The level can hold the links, and the first operand if it has signs. -/
structure Holds (level : Level) (first : Operand) (links : List Link) : Prop where
  ops : ∀ link ∈ links, tightness level ≤ tightness (levelOfOp link.op)
  signs : 6 < tightness level → first.signs = []

theorem Holds.tighter (h : Holds level first links) (hpath : level ≠ .path)
    (hsigns : level = .unary → first.signs = [])
    (hlevel : ∀ link ∈ links, levelOfOp link.op ≠ level) : Holds level.operand first links := by
  have hoperand : tightness level.operand = tightness level + 1 := tightness_operand hpath
  refine ⟨fun link hlink => ?_, fun hlt => ?_⟩
  · have hle := h.ops link hlink
    have hne : tightness level ≠ tightness (levelOfOp link.op) :=
      fun heq => hlevel link hlink (eq_of_tightness_eq heq).symm
    omega
  · by_cases hunary : level = .unary
    · exact hsigns hunary
    · have hne : tightness level ≠ 6 := fun heq => hunary (eq_of_tightness_eq heq)
      exact h.signs (by omega)

theorem Holds.before {before after : List Link} {link : Link}
    (h : Holds level first (before ++ link :: after)) : Holds level first before :=
  ⟨fun other hother => h.ops other (List.mem_append_left _ hother), h.signs⟩

/-- Behind the last operator of the level its operand holds all that follows. -/
theorem Holds.after {before after : List Link} {link : Link}
    (h : Holds level first (before ++ link :: after))
    (hlink : levelOfOp link.op = level) (hafter : ∀ other ∈ after, levelOfOp other.op ≠ level) :
    Holds level.operand link.operand after := by
  obtain ⟨hmost, hne, hunion⟩ := tightness_levelOfOp link.op
  rw [hlink] at hmost hne hunion
  have hself : Holds level link.operand after := by
    refine ⟨fun other hother => h.ops other (by simp [hother]), fun hlt => ?_⟩
    exact link.unsigned (hunion (by omega))
  refine hself.tighter ?_ ?_ hafter
  · exact hlink ▸ levelOfOp_ne_path link.op
  · rintro rfl
    exact absurd rfl hne

/-- The induction is from the tightest level outwards, and on each level on the number of signs or
links. -/
theorem Holds.exists_groups (h : Holds level first links) : ∃ e, Groups level first links e := by
  induction hgap : 8 - tightness level generalizing level first links with
  | zero =>
    obtain rfl : level = .path := by
      revert hgap
      cases level <;> decide
    have hnil : links = [] := List.eq_nil_iff_forall_not_mem.mpr fun link hlink => by
      have hle : 8 ≤ tightness (levelOfOp link.op) := h.ops link hlink
      have hmost := (tightness_levelOfOp link.op).1
      omega
    exact ⟨_, hnil ▸ Groups.inner (h.signs (by decide))⟩
  | succ gap ih =>
    have hpath : level ≠ .path := by
      rintro rfl
      cases hgap
    have hgap' : 8 - tightness level.operand = gap := by
      rw [tightness_operand hpath]
      omega
    by_cases hunary : level = .unary
    · subst hunary
      obtain ⟨signs, inner⟩ := first
      have hnone : ∀ link ∈ links, levelOfOp link.op ≠ .unary :=
        fun link _ heq => (tightness_levelOfOp link.op).2.1 (by rw [heq]; rfl)
      have hinner : Holds .unary ⟨[], inner⟩ links := ⟨h.ops, fun _ => rfl⟩
      obtain ⟨e, he⟩ := ih (hinner.tighter hpath (fun _ => rfl) hnone) hgap'
      clear h
      induction signs with
      | nil => exact ⟨e, .operand he⟩
      | cons blanks signs ihsigns =>
        obtain ⟨e, he⟩ := ihsigns
        exact ⟨.negate e, .negate he⟩
    · induction hlength : links.length using Nat.strong_induction_on generalizing links with
      | _ length ihlength =>
        by_cases hlast : ∃ link ∈ links, levelOfOp link.op = level
        · obtain ⟨before, link, after, rfl, hlink, hafter⟩ := exists_last hlast
          have hshorter : before.length < length := by
            rw [← hlength, List.length_append, List.length_cons]
            omega
          obtain ⟨left, hleft⟩ := ihlength _ hshorter h.before rfl
          obtain ⟨right, hright⟩ := ih (h.after hlink hafter) hgap'
          exact ⟨_, .binary (hlink ▸ mem_operators link.op) hleft hright⟩
        · have hnone : ∀ link ∈ links, levelOfOp link.op ≠ level :=
            fun link hlink heq => hlast ⟨link, hlink, heq⟩
          obtain ⟨e, he⟩ := ih (h.tighter hpath (fun heq => absurd heq hunary) hnone) hgap'
          exact ⟨e, .operand he⟩

end XPath.Parser

namespace XPath
open XPath.Parser XPath.Grammar

theorem parse_groups {chain : Chain} {e : Expr} (h : Groups .or chain.first chain.more e) :
    Expr.parse (String.ofList chain.text) = .ok e := by
  have hstops : Stops [] := by rintro c ⟨⟩
  have hempty : Follows .or [] := ⟨rfl, rfl, fun level _ => noOperator_of_stops hstops level⟩
  have hlength : (chain.first.text ++ (chain.more.flatMap Link.text ++ [])).length ≤
      chain.text.length := by
    rw [List.append_nil]
    exact Nat.le_refl _
  have hread := levelOf_groups h hlength hempty
  rw [List.dropWhile_nil, goOn_of_noOperator (noOperator_of_stops hstops .or),
    List.append_nil] at hread
  refine parse_eq_ok_iff.mpr ⟨[], ?_, by simp⟩
  rw [String.toList_ofList]
  exact hread

/-- A chain of operators is accepted, and its syntax tree is the only one that the levels give. -/
theorem parse_chain (chain : Chain) :
    ∃ e, Expr.parse (String.ofList chain.text) = .ok e ∧ Groups .or chain.first chain.more e ∧
      ∀ e', Groups .or chain.first chain.more e' → e' = e := by
  have hholds : Holds .or chain.first chain.more :=
    ⟨fun _ _ => Nat.zero_le _, fun hlt => absurd hlt (by decide)⟩
  obtain ⟨e, he⟩ := hholds.exists_groups
  refine ⟨e, parse_groups he, he, fun e' he' => ?_⟩
  have hsame := (parse_groups he').symm.trans (parse_groups he)
  exact Except.ok.inj hsame

/-- A chain with operators of five levels. The sign in front applies to the union, signs may follow
each other with blanks between them, `<=` is written without its special character, and two
operators of one level are grouped to the left. -/
theorem parse_chain_of_five_levels :
    let text := "-($a) | (b ) mod - \t-(b ) &lt;=\n($a) - (b ) + ($a)"
    let a : Expr := .reference "a"
    let b : Expr := .path .context [.mk .child (.name (.plain "b")) []]
    ∃ chain : Chain, String.ofList chain.text = text ∧
      Expr.parse text = .ok (.binary (.compare .lessEqual)
        (.binary (.arith .modulo) (.negate (.binary .union a b)) (.negate (.negate b)))
        (.binary (.arith .add) (.binary (.arith .subtract) a b) a)) := by
  intro text a b
  let inA : Enclosed := ⟨"$a".toList, a, rfl, by decide⟩
  let inB : Enclosed := ⟨"b ".toList, b, rfl, by decide⟩
  let closed : Blanks := ⟨[], by decide⟩
  let apart : Blanks := ⟨[' ', '\t'], by decide⟩
  let space : Gap := ⟨[' '], by decide⟩
  let newline : Gap := ⟨['\n'], by decide⟩
  let first : Operand := ⟨[closed], inA⟩
  let union : Link := ⟨space, .union, "|", space, ⟨[], inB⟩, by decide, fun _ => rfl⟩
  let modulo : Link :=
    ⟨space, .arith .modulo, "mod", space, ⟨[apart, closed], inB⟩, by decide, by decide⟩
  let atMost : Link :=
    ⟨space, .compare .lessEqual, "&lt;=", newline, ⟨[], inA⟩, by decide, fun _ => rfl⟩
  let minus : Link := ⟨space, .arith .subtract, "-", space, ⟨[], inB⟩, by decide, fun _ => rfl⟩
  let plus : Link := ⟨space, .arith .add, "+", space, ⟨[], inA⟩, by decide, fun _ => rfl⟩
  let chain : Chain := ⟨first, [union, modulo, atMost, minus, plus]⟩
  have hsingle : ∀ inner : Enclosed, Groups .multiplicative ⟨[], inner⟩ [] inner.expr := fun _ =>
    .operand (.operand (.operand (.inner rfl)))
  have hunion : Groups .union ⟨[], inA⟩ [union] (.binary .union a b) :=
    @Groups.binary .union ⟨[], inA⟩ [] [] union _ _ (by decide) (.operand (.inner rfl)) (.inner rfl)
  have hsigns : Groups .unary modulo.operand [] (.negate (.negate b)) :=
    .negate (.negate (.operand (.operand (.inner rfl))))
  have hproduct : Groups .multiplicative first [union, modulo]
      (.binary (.arith .modulo) (.negate (.binary .union a b)) (.negate (.negate b))) :=
    @Groups.binary .multiplicative first [union] [] modulo _ _ (by decide)
      (.operand (.negate (.operand hunion))) hsigns
  have hdifference : Groups .additive ⟨[], inA⟩ [minus] (.binary (.arith .subtract) a b) :=
    @Groups.binary .additive ⟨[], inA⟩ [] [] minus _ _ (by decide) (.operand (hsingle inA))
      (hsingle inB)
  have hsum : Groups .additive ⟨[], inA⟩ [minus, plus]
      (.binary (.arith .add) (.binary (.arith .subtract) a b) a) :=
    @Groups.binary .additive ⟨[], inA⟩ [minus] [] plus _ _ (by decide) hdifference (hsingle inA)
  have hcomparison : Groups .relational first chain.more _ :=
    @Groups.binary .relational first [union, modulo] [minus, plus] atMost _ _ (by decide)
      (.operand (.operand hproduct)) hsum
  have htext : String.ofList chain.text = text := by decide
  obtain ⟨e, hparse, -, honly⟩ := parse_chain chain
  rw [← honly _ (.operand (.operand (.operand hcomparison))), htext] at hparse
  exact ⟨chain, htext, hparse⟩

end XPath
