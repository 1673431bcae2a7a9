import XPath.Expr.Parse
import XPath.Proofs.Grammar.Phrase
import XPath.Proofs.Parser.Token
/-! The parser only accepts what the grammar derives. A parser is sound for a relation between tokens
and values if what it takes of a text can be read as tokens that are related to its value. Each
combinator keeps soundness and each production of the grammar has its parser; the nesting of
expressions is an induction on the depth that the parser allows. -/
namespace XPath.Parser
set_option autoImplicit false

open Grammar

/-! ## Combinators -/

section
variable {α β : Type} {p q : Parser α} {f : α → Parser β} {g : α → β} {v : α}
  {R Q : List Token → α → Prop} {T : List Token → β → Prop} {O : List Token → Option α → Prop}

def Sound (p : Parser α) (R : List Token → α → Prop) : Prop :=
  ∀ s v rest, (p s).result = some (v, rest) → ∃ ts, Scan s ts rest ∧ R ts v

theorem Sound.imp (hp : Sound p Q) (h : ∀ ts v, Q ts v → R ts v) : Sound p R := by
  intro s v rest hs
  obtain ⟨ts, hscan, hts⟩ := hp s v rest hs
  exact ⟨ts, hscan, h ts v hts⟩

theorem Sound.pure (h : R [] v) : Sound (pure v) R := by
  rintro s _ rest ⟨⟩
  exact ⟨[], .done, h⟩

theorem Sound.fail : Sound fail R := by
  rintro s v rest ⟨⟩

theorem Sound.bind (hp : Sound p Q) (hf : ∀ ts v, Q ts v → Sound (f v) fun us => T (ts ++ us)) :
    Sound (p >>= f) T := by
  intro s w rest h
  obtain ⟨v, mid, hv, hw⟩ := exists_of_bind h
  obtain ⟨ts, hscan, hts⟩ := hp s v mid hv
  obtain ⟨us, hscan', hus⟩ := hf ts v hts mid w rest hw
  exact ⟨ts ++ us, hscan.trans hscan', hus⟩

theorem Sound.map (hp : Sound p fun ts v => T ts (g v)) : Sound (g <$> p) T := by
  intro s w rest h
  rw [result_map] at h
  obtain ⟨⟨v, mid⟩, hv, heq⟩ := Option.map_eq_some_iff.mp h
  obtain ⟨rfl, rfl⟩ := Prod.mk.inj heq
  exact hp s v mid hv

theorem Sound.orElse (hp : Sound p R) (hq : Sound q R) : Sound (p <|> q) R := by
  intro s v rest h
  rw [result_orElse, Option.or_eq_some_iff] at h
  rcases h with h | ⟨-, h⟩
  · exact hp s v rest h
  · exact hq s v rest h

theorem Sound.firstOf {choices : List (Parser α)} (h : ∀ p ∈ choices, Sound p R) :
    Sound (firstOf choices) R := by
  induction choices with
  | nil => exact .fail
  | cons p choices ih =>
    exact .orElse (h p List.mem_cons_self) (ih fun q hq => h q (List.mem_cons_of_mem _ hq))

theorem Sound.optional (hp : Sound p fun ts v => O ts (some v)) (hnone : O [] none) :
    Sound (optional p) O := .orElse (.map hp) (.pure hnone)

theorem Sound.many (hp : Sound p Q) {R : List Token → List α → Prop} (hnil : R [] [])
    (hcons : ∀ ts v us vs, Q ts v → R us vs → R (ts ++ us) (v :: vs)) : Sound (many p) R := by
  intro s vs rest h
  have hrepeats := repeats_of_many h
  clear h
  induction hrepeats with
  | stop => exact ⟨[], .done, hnil⟩
  | next hv _ _ ih =>
    obtain ⟨ts, hscan, hts⟩ := hp _ _ _ hv
    obtain ⟨us, hscan', hus⟩ := ih
    exact ⟨ts ++ us, hscan.trans hscan', hcons _ _ _ _ hts hus⟩

theorem sound_blanks {R : List Token → Unit → Prop} (h : R [] ()) : Sound blanks R := by
  intro s v rest hs
  obtain rfl : s.dropWhile Text.isBlank = rest := (Prod.mk.inj (Option.some.inj hs)).2
  exact ⟨[], .dropBlanks, h⟩

theorem Sound.spaced (hp : Sound p R) : Sound (spaced p) R := by
  intro s v rest h
  rw [result_spaced] at h
  obtain ⟨⟨v, mid⟩, hv, heq⟩ := Option.map_eq_some_iff.mp h
  obtain ⟨rfl, rfl⟩ := Prod.mk.inj heq
  obtain ⟨ts, hscan, hts⟩ := hp _ v mid hv
  refine ⟨ts, ?_, hts⟩
  simpa using Scan.dropBlanks.trans (hscan.trans .dropBlanks)

end

/-! ## Tokens -/

section
variable {α β : Type} {s rest : List Char}

/-- Symbols of one character that begin no longer ones. -/
def marks : List (Char × String) :=
  [('(', "("), (')', ")"), ('[', "["), (']', "]"), (',', ","), ('@', "@"), ('-', "-"), ('*', "*")]

theorem marks_spec : ∀ mark ∈ marks,
    mark.2.toList = [mark.1] ∧ mark.2 ∈ symbols ∧ extensions mark.2 = [] := by decide

theorem sound_char {c : Char} {text : String} (hmark : (c, text) ∈ marks) :
    Sound (char c) fun ts _ => ts = [.symbol text] := by
  intro s d rest h
  obtain ⟨hchars, hmem, halone⟩ := marks_spec (c, text) hmark
  obtain ⟨rfl, -⟩ := result_char.mp h
  have hleads : (Token.symbol text).Leads (c :: rest) rest :=
    leads_symbol hmem (by rw [hchars]; rfl) (by simp [halone])
  exact ⟨_, .single hleads, rfl⟩

theorem sound_word {text : String} (hmem : text ∈ symbols) (halone : extensions text = []) :
    Sound (word text) fun ts _ => ts = [.symbol text] := by
  intro s u rest h
  exact ⟨_, .single (leads_symbol hmem (result_word.mp h) (by simp [halone])), rfl⟩

theorem sound_literal : Sound literal fun ts text => ts = [.literal text] := by
  intro s v rest h
  exact ⟨_, .single (result_literal.mp h), rfl⟩

theorem sound_numeral : Sound numeral fun ts value => ts = [.number value] := by
  intro s v rest h
  exact ⟨_, .single (result_numeral.mp h), rfl⟩

theorem sound_operator (level : Level) :
    Sound (operatorOf level) fun ts op => ∃ token, ts = [token] ∧ (token, op) ∈ level.operators := by
  intro s op rest h
  obtain ⟨token, hmem, hleads⟩ := exists_operator h
  exact ⟨_, .single hleads, token, rfl, hmem⟩

theorem sound_qualifiedName :
    Sound qualifiedName fun ts w => ∃ qname : QName, ts = [.name qname] ∧ w = qname.text := by
  intro s w rest h
  obtain ⟨qname, hw, hproper, hs, hends⟩ := exists_qualifiedName h
  have hleads : (Token.name qname).Leads s rest := ⟨hproper, hs, hends⟩
  exact ⟨_, .single hleads, qname, rfl, hw⟩

/-- A name ends where a symbol follows, with or without blanks between. -/
theorem startsIn_of_spaced {p : Parser α} {f : α → Parser β} {found : β × List Char}
    (h : ((spaced p >>= f) s).result = some found)
    (hp : ∀ s found, (p s).result = some found → startsIn isNameChar s = false) :
    startsIn isNameChar s = false := by
  obtain ⟨v, mid, hspaced, -⟩ := exists_of_bind h
  rw [result_spaced] at hspaced
  obtain ⟨_, hfirst, -⟩ := Option.map_eq_some_iff.mp hspaced
  exact startsIn_of_dropBlanks (fun _ => isNameChar_eq_false_of_isBlank) (hp _ _ hfirst)

theorem startsIn_of_char {c : Char} {found : Char × List Char} (hc : isNameChar c = false)
    (h : (char c s).result = some found) : startsIn isNameChar s = false := by
  obtain ⟨rfl, -⟩ := result_char.mp h
  exact hc

theorem Sound.afterName {p : Parser α} {f : α → Parser β} {Q : String → α → Prop}
    {T : List Token → β → Prop}
    (hp : ∀ s v mid, (p s).result = some (v, mid) →
      ∃ name, Q name v ∧ IsSimpleName name.toList ∧ s = name.toList ++ mid)
    (hends : ∀ v s found, (f v s).result = some found → startsIn isNameChar s = false)
    (hf : ∀ name v, Q name v → Sound (f v) fun us => T (.name (.plain name) :: us)) :
    Sound (p >>= f) T := by
  intro s w rest h
  obtain ⟨v, mid, hv, hw⟩ := exists_of_bind h
  obtain ⟨name, hname, hsimple, rfl⟩ := hp s v mid hv
  have hleads : (Token.name (.plain name)).Leads (name.toList ++ mid) mid :=
    ⟨isProperName_plain hsimple, rfl, hends v mid _ hw⟩
  obtain ⟨us, hscan, hus⟩ := hf name v hname mid w rest hw
  exact ⟨_, .token hleads hscan, hus⟩

/-! ## Node tests -/

theorem sound_instruction :
    Sound (NodeTest.instruction <$> optional (spaced literal)) fun ts test =>
      ∃ target, test = .instruction target ∧ ts = target.toList.map Token.literal := by
  refine .map (.optional (sound_literal.spaced.imp ?_) ?_)
  · rintro _ text rfl
    exact ⟨some text, rfl, rfl⟩
  · exact ⟨none, rfl, rfl⟩

theorem sound_typeTest : Sound typeTest TestOf := by
  have hopen : Sound (spaced (char '(')) fun ts _ => ts = [.symbol "("] :=
    (sound_char (by decide)).spaced
  have hclose : Sound (char ')') fun ts _ => ts = [.symbol ")"] := sound_char (by decide)
  refine Sound.afterName (fun s _ _ => exists_nodeType) (fun _ s _ h => startsIn_of_spaced h ?_) ?_
  · exact fun s found => startsIn_of_char (by decide)
  intro name type htype
  refine hopen.bind ?_
  rintro _ - rfl
  cases type with
  | some test =>
    refine Sound.bind (Sound.pure (R := fun us v => us = [] ∧ v = test) ⟨rfl, rfl⟩) ?_
    rintro _ _ ⟨rfl, rfl⟩
    refine hclose.bind ?_
    rintro _ - rfl
    exact .pure (.type htype.1)
  | none =>
    refine sound_instruction.bind ?_
    rintro _ _ ⟨target, rfl, rfl⟩
    refine hclose.bind ?_
    rintro _ - rfl
    refine .pure ?_
    cases target with
    | none => exact .type htype.1
    | some target =>
      rw [htype.2 rfl]
      exact .instruction target

theorem exists_localTest {found : Option String} (h : (localTest s).result = some (found, rest)) :
    found = none ∧ s = '*' :: rest ∨
      ∃ name, found = some name ∧ IsSimpleName name.toList ∧ s = name.toList ++ rest ∧
        startsIn isNameChar rest = false := by
  unfold localTest at h
  rw [result_orElse, Option.or_eq_some_iff, result_map] at h
  rcases h with h | ⟨-, h⟩
  · obtain ⟨c, mid, hstar, hmid⟩ := exists_of_bind h
    obtain ⟨rfl, rfl⟩ := Prod.mk.inj (Option.some.inj hmid)
    exact Or.inl ⟨rfl, (result_char.mp hstar).1⟩
  · obtain ⟨⟨name, mid⟩, hname, heq⟩ := Option.map_eq_some_iff.mp h
    obtain ⟨rfl, rfl⟩ := Prod.mk.inj heq
    exact Or.inr ⟨name, rfl, result_simpleName.mp hname⟩

theorem sound_nameTest : Sound nameTest TestOf := by
  intro s test rest h
  obtain ⟨first, mid, hfirst, hmid⟩ := exists_of_bind h
  obtain ⟨found, after, hfound, hafter⟩ := exists_of_bind hmid
  obtain ⟨hsimple, rfl, hends⟩ := result_simpleName.mp hfirst
  rw [result_optional] at hfound
  split at hfound
  · next second after' hsecond =>
    obtain ⟨rfl, rfl⟩ := Prod.mk.inj (Option.some.inj hfound)
    obtain ⟨c, mid', hcolon, hlocal⟩ := exists_of_bind hsecond
    obtain ⟨rfl, -⟩ := result_char.mp hcolon
    rcases exists_localTest hlocal with ⟨rfl, rfl⟩ | ⟨name, rfl, hsimple', rfl, hends'⟩
    · obtain ⟨rfl, rfl⟩ := Prod.mk.inj (Option.some.inj hafter)
      have hleads : (Token.anyWith first).Leads (first.toList ++ ':' :: '*' :: after') after' :=
        ⟨hsimple, rfl⟩
      exact ⟨_, .single hleads, .anyWith first⟩
    · obtain ⟨rfl, rfl⟩ := Prod.mk.inj (Option.some.inj hafter)
      have hproper : IsProperName ⟨some first, name⟩ := ⟨by rintro _ ⟨⟩; exact hsimple, hsimple'⟩
      have hleads : (Token.name ⟨some first, name⟩).Leads
          (first.toList ++ ':' :: (name.toList ++ after')) after' :=
        ⟨hproper, by simp [QName.text], hends'⟩
      exact ⟨_, .single hleads, .name _⟩
  · obtain ⟨rfl, rfl⟩ := Prod.mk.inj (Option.some.inj hfound)
    obtain ⟨rfl, rfl⟩ := Prod.mk.inj (Option.some.inj hafter)
    have hleads : (Token.name (.plain first)).Leads (first.toList ++ mid) mid :=
      ⟨isProperName_plain hsimple, rfl, hends⟩
    exact ⟨_, .single hleads, .name _⟩

theorem sound_nodeTest : Sound nodeTest TestOf := by
  refine .firstOf ?_
  simp only [List.forall_mem_cons]
  refine ⟨?_, sound_typeTest, sound_nameTest, by simp⟩
  refine (sound_char (by decide : ('*', "*") ∈ marks)).bind ?_
  rintro _ - rfl
  exact .pure .anyName

/-! ## Axes -/

theorem sound_axisName : Sound axisName AxisOf := by
  have hcolons : Sound (spaced (word "::")) fun ts _ => ts = [.symbol "::"] :=
    (sound_word (by decide) (by decide)).spaced
  refine Sound.afterName (Q := fun name axis => name = axis.name) ?_ ?_ ?_
  · intro s axis mid h
    obtain ⟨p, hp, h⟩ := exists_of_firstOf h
    obtain ⟨axis', -, rfl⟩ := List.mem_map.mp hp
    obtain ⟨rfl, hs⟩ := result_spelling.mp h
    exact ⟨_, rfl, isSimpleName_axis _, hs⟩
  · intro axis s found h
    refine startsIn_of_spaced h fun s found hword => ?_
    have hcolon : isNameChar ':' = false := by decide
    rw [result_word.mp hword]
    exact hcolon
  · rintro _ axis rfl
    refine hcolons.bind ?_
    rintro _ - rfl
    exact .pure (.named axis)

theorem sound_axisTest :
    Sound axisTest fun ts (axis, test) =>
      ∃ us vs, ts = us ++ vs ∧ AxisOf us axis ∧ TestOf vs test := by
  refine .orElse ?_ ?_
  · refine (sound_char (by decide : ('@', "@") ∈ marks)).spaced.bind ?_
    rintro _ - rfl
    refine sound_nodeTest.bind fun us test htest => .pure ?_
    exact ⟨_, us, by simp, .attribute, htest⟩
  · refine (Sound.optional (O := fun ts axis => AxisOf ts (axis.getD .child)) sound_axisName
      .child).bind fun ts axis haxis => ?_
    exact sound_nodeTest.bind fun us test htest => .pure ⟨ts, us, by simp, haxis, htest⟩

end

/-! ## Paths -/

section
variable {expr : Parser Expr} (hexpr : Sound expr (ExprOf .accepted .or))
include hexpr

theorem sound_predicate :
    Sound (predicate expr) fun ts e =>
      ∃ us, ts = .symbol "[" :: (us ++ [.symbol "]"]) ∧ ExprOf .accepted .or us e := by
  refine (sound_char (by decide : ('[', "[") ∈ marks)).spaced.bind ?_
  rintro _ - rfl
  refine hexpr.bind fun us e he => ?_
  refine (sound_char (by decide : (']', "]") ∈ marks)).spaced.bind ?_
  rintro _ - rfl
  exact .pure ⟨us, by simp, he⟩

theorem sound_predicates : Sound (many (predicate expr)) (PredicatesOf .accepted) := by
  refine (sound_predicate hexpr).many .nil ?_
  rintro _ e vs more ⟨us, rfl, he⟩ hmore
  simpa using PredicatesOf.cons he hmore

theorem sound_step : Sound (step expr) (StepOf .accepted) := by
  intro s v rest h
  unfold step at h
  rw [result_firstOf_cons, result_firstOf_cons, result_firstOf_cons, ← Option.or_assoc,
    Option.or_eq_some_iff] at h
  rcases h with hdots | ⟨-, hfull⟩
  · have hchoices : (firstOf ([("..", Step.toAny .parent), (".", Step.toAny .self)].map
        fun choice => spelling choice.1 choice.2) s).result = some (v, rest) := by
      simpa using hdots
    obtain ⟨text, hmem, hleads⟩ := leads_of_spellings rfl hchoices
    refine ⟨_, .single hleads, ?_⟩
    simp only [List.mem_cons, Prod.mk.injEq, List.not_mem_nil, or_false] at hmem
    rcases hmem with ⟨rfl, rfl⟩ | ⟨rfl, rfl⟩
    · exact .parent
    · exact .self
  · have hsound : Sound (fullStep expr) (StepOf .accepted) := by
      refine sound_axisTest.bind ?_
      rintro _ ⟨axis, test⟩ ⟨us, vs, rfl, haxis, htest⟩
      exact (sound_predicates hexpr).bind fun ws predicates hpredicates =>
        .pure (by simpa using StepOf.full haxis htest hpredicates)
    exact hsound s v rest (by simpa using hfull)

/-- Tokens and steps that may be put in front of others. -/
def FrontOf (ts : List Token) (steps : List Step) : Prop :=
  ∀ us more, MoreStepsOf .accepted us more → MoreStepsOf .accepted (ts ++ us) (steps ++ more)

theorem sound_nextSteps : Sound (nextSteps expr) FrontOf := by
  have hseparator : Sound separator fun ts double =>
      ts = [.symbol (if double then "//" else "/")] := by
    refine Sound.spaced fun s double rest h => ?_
    have hchoices : (firstOf ([("//", true), ("/", false)].map
        fun choice => spelling choice.1 choice.2) s).result = some (double, rest) := by
      simpa using h
    obtain ⟨text, hmem, hleads⟩ := leads_of_spellings rfl hchoices
    refine ⟨_, .single hleads, ?_⟩
    simp only [List.mem_cons, Prod.mk.injEq, List.not_mem_nil, or_false] at hmem
    rcases hmem with ⟨rfl, rfl⟩ | ⟨rfl, rfl⟩ <;> rfl
  refine hseparator.bind ?_
  rintro _ double rfl
  refine (sound_step hexpr).bind fun ts step hstep => .pure fun us more hmore => ?_
  cases double
  · simpa using MoreStepsOf.slash hstep hmore
  · simpa using MoreStepsOf.double hstep hmore

theorem sound_moreSteps : Sound (moreSteps expr) (MoreStepsOf .accepted) := by
  refine .map ((sound_nextSteps hexpr).many .nil fun ts steps us more hsteps hmore => ?_)
  exact hsteps us _ hmore

/-- Tokens that begin a path, with its start and its first steps. -/
def BeginsPath (ts : List Token) (found : Start × List Step) : Prop :=
  ∀ us more, MoreStepsOf .accepted us more →
    PathOf .accepted (ts ++ us) found.1 (found.2 ++ more)

theorem sound_afterDoubleSlash : Sound (do
    blanks
    return (Start.root, [Step.toAny .descendantOrSelf, ← step expr]))
    fun ts found => BeginsPath (.symbol "//" :: ts) found := by
  refine Sound.bind (sound_blanks rfl : Sound blanks fun ts _ => ts = []) ?_
  rintro _ - rfl
  refine (sound_step hexpr).bind fun ts step hstep => .pure fun us more hmore => ?_
  have hsteps := MoreStepsOf.double hstep hmore
  simpa using PathOf.absolute hsteps (by simp)

/-- A slash and then perhaps a step; without one, more steps make it a path of their own. -/
theorem sound_afterSlash : Sound (do
    let first ← optional (do blanks; step expr)
    return (Start.root, first.toList))
    fun ts found => BeginsPath (.symbol "/" :: ts) found := by
  have hstep : Sound (do blanks; step expr)
      fun ts step => BeginsPath (.symbol "/" :: ts) (.root, [step]) := by
    refine Sound.bind (sound_blanks rfl : Sound blanks fun ts _ => ts = []) ?_
    rintro _ - rfl
    refine (sound_step hexpr).imp fun ts step hstep us more hmore => ?_
    have hsteps := MoreStepsOf.slash hstep hmore
    simpa using PathOf.absolute hsteps (by simp)
  have hroot : BeginsPath [.symbol "/"] (.root, []) := by
    intro us more hmore
    by_cases hmore' : more = []
    · subst hmore'
      cases hmore
      exact .root
    · exact .doubled rfl hmore hmore'
  have hfirst : Sound (optional (do blanks; step expr))
      fun ts first => BeginsPath (.symbol "/" :: ts) (.root, first.toList) :=
    .optional hstep hroot
  exact hfirst.bind fun ts first hbegins => .pure (by simpa using hbegins)

theorem sound_relativeStart :
    Sound (do return (Start.context, [← step expr])) BeginsPath :=
  (sound_step hexpr).bind fun ts step hstep => .pure fun us more hmore => by
    simpa using PathOf.relative hstep hmore

theorem sound_pathStart : Sound (pathStart expr) BeginsPath := by
  intro s found rest h
  unfold pathStart at h
  obtain ⟨double, mid, hdouble, hmid⟩ := exists_of_bind h
  rw [result_optional] at hdouble
  split at hdouble
  · next u after hword =>
    obtain ⟨rfl, rfl⟩ := Prod.mk.inj (Option.some.inj hdouble)
    obtain ⟨_, hscan, rfl⟩ :=
      sound_word (by decide : "//" ∈ symbols) (by decide) s u after hword
    obtain ⟨ts, hscan', hts⟩ := sound_afterDoubleSlash hexpr after found rest hmid
    exact ⟨_, hscan.trans hscan', hts⟩
  · next hstuck =>
    obtain ⟨rfl, rfl⟩ := Prod.mk.inj (Option.some.inj hdouble)
    obtain ⟨single, mid', hsingle, hmid'⟩ := exists_of_bind hmid
    rw [result_optional] at hsingle
    split at hsingle
    · next u after hword =>
      obtain ⟨rfl, rfl⟩ := Prod.mk.inj (Option.some.inj hsingle)
      have hleads : (Token.symbol "/").Leads s after := by
        refine leads_symbol (by decide) (result_word.mp hword) ?_
        have hextensions : extensions "/" = ["//"] := by decide
        rw [hextensions]
        simpa using hstuck
      obtain ⟨ts, hscan, hts⟩ := sound_afterSlash hexpr after found rest hmid'
      exact ⟨_, .token hleads hscan, hts⟩
    · obtain ⟨rfl, rfl⟩ := Prod.mk.inj (Option.some.inj hsingle)
      exact sound_relativeStart hexpr _ found rest hmid'

theorem sound_locationPath : Sound (locationPath expr) (ExprOf .accepted .path) := by
  refine (sound_pathStart hexpr).bind ?_
  rintro ts ⟨start, first⟩ hfirst
  exact (sound_moreSteps hexpr).bind fun us more hmore =>
    .pure (.path (by simpa using hfirst us more hmore))

/-! ## Primary expressions -/

omit hexpr in
theorem sound_reference : Sound reference (PrimaryOf .accepted) := by
  intro s e rest h
  obtain ⟨c, mid, hdollar, hmid⟩ := exists_of_bind h
  obtain ⟨name, after, hname, hafter⟩ := exists_of_bind hmid
  obtain ⟨rfl, rfl⟩ := Prod.mk.inj (Option.some.inj hafter)
  obtain ⟨rfl, -⟩ := result_char.mp hdollar
  obtain ⟨qname, rfl, hproper, rfl, hends⟩ := exists_qualifiedName hname
  have hleads : (Token.reference qname).Leads ('$' :: (qname.text.toList ++ after)) after :=
    ⟨hproper, rfl, hends⟩
  exact ⟨_, .single hleads, .reference qname⟩

theorem sound_arguments :
    Sound (separated (spaced (char ',')) expr) (ArgumentsOf .accepted) := by
  have hmore : Sound (do let _ ← spaced (char ','); expr) fun ts e =>
      ∃ us, ts = .symbol "," :: us ∧ ExprOf .accepted .or us e := by
    refine (sound_char (by decide : (',', ",") ∈ marks)).spaced.bind ?_
    rintro _ - rfl
    exact hexpr.imp fun us e he => ⟨us, rfl, he⟩
  have hfirst : Sound (optional expr) fun ts first =>
      (∀ e, first = some e → ExprOf .accepted .or ts e) ∧ (first = none → ts = []) :=
    .optional (hexpr.imp fun ts e he => ⟨by rintro _ ⟨⟩; exact he, nofun⟩) ⟨nofun, fun _ => rfl⟩
  refine hfirst.bind fun ts first hts => ?_
  cases first with
  | none =>
    obtain rfl := hts.2 rfl
    exact .pure .none
  | some e =>
    have he := hts.1 e rfl
    have hmany : Sound (many (do let _ ← spaced (char ','); expr)) (MoreArgumentsOf .accepted) := by
      refine hmore.many .nil ?_
      rintro _ e vs more ⟨us, rfl, he⟩ hmore
      exact .cons he hmore
    exact hmany.bind fun us more hmore => .pure (by simpa using ArgumentsOf.some he hmore)

theorem sound_call : Sound (call expr) (PrimaryOf .accepted) := by
  have hpeek : Sound (peek (spaced (char '('))) fun ts _ => ts = [] := by
    intro s v rest h
    rw [result_peek] at h
    obtain ⟨found, -, heq⟩ := Option.map_eq_some_iff.mp h
    obtain ⟨-, rfl⟩ := Prod.mk.inj heq
    exact ⟨[], .done, rfl⟩
  unfold call
  refine sound_qualifiedName.bind ?_
  rintro _ _ ⟨qname, rfl, rfl⟩
  refine hpeek.bind ?_
  rintro _ - rfl
  split
  · exact .fail
  next hname =>
  have hfunction : ∀ entry ∈ Grammar.nodeTypes, qname.text ≠ entry.1 := by
    have hnames : nodeTypes = Grammar.nodeTypes.map Prod.fst := rfl
    intro entry hentry heq
    rw [hnames, heq, List.contains_iff_mem] at hname
    exact hname (List.mem_map_of_mem hentry)
  refine Sound.bind (sound_blanks (R := fun ts _ => ts = []) rfl) ?_
  rintro _ - rfl
  refine (sound_char (by decide : ('(', "(") ∈ marks)).bind ?_
  rintro _ - rfl
  refine (sound_arguments hexpr).bind fun us args hargs => ?_
  refine (sound_char (by decide : (')', ")") ∈ marks)).spaced.bind ?_
  rintro _ - rfl
  exact .pure (by simpa using PrimaryOf.call hfunction hargs)

theorem sound_parenthesized : Sound (parenthesized expr) (PrimaryOf .accepted) := by
  refine (sound_char (by decide : ('(', "(") ∈ marks)).bind ?_
  rintro _ - rfl
  refine hexpr.bind fun us e he => ?_
  refine (sound_char (by decide : (')', ")") ∈ marks)).spaced.bind ?_
  rintro _ - rfl
  exact .pure (by simpa using PrimaryOf.parentheses he)

theorem sound_primary : Sound (primary expr) (PrimaryOf .accepted) := by
  refine Sound.spaced (.firstOf ?_)
  simp only [List.forall_mem_cons]
  refine ⟨sound_reference, .map (sound_numeral.imp ?_), .map (sound_literal.imp ?_),
    sound_call hexpr, sound_parenthesized hexpr, by simp⟩
  · rintro _ value rfl
    exact .number value
  · rintro _ text rfl
    exact .literal text

theorem sound_filterPath : Sound (filterPath expr) (ExprOf .accepted .path) := by
  refine (sound_primary hexpr).bind fun ts e he => ?_
  refine (sound_predicates hexpr).bind fun us predicates hpredicates => ?_
  -- The primary expression with its predicates, whether it has any or not.
  have hstart : FilterOf .accepted (ts ++ us)
      (if predicates.isEmpty then e else .filter e predicates) := by
    cases predicates with
    | nil =>
      cases hpredicates
      simpa using FilterOf.bare he
    | cons first more => exact .narrowed he hpredicates (List.cons_ne_nil _ _)
  refine (sound_moreSteps hexpr).bind fun vs steps hsteps => .pure ?_
  cases steps with
  | nil =>
    cases hsteps
    simpa using ExprOf.filter hstart
  | cons first more => simpa using ExprOf.path (.filter hstart hsteps (List.cons_ne_nil _ _))

theorem sound_pathExpr : Sound (pathExpr expr) (ExprOf .accepted .path) :=
  .spaced (.orElse (sound_filterPath hexpr) (sound_locationPath hexpr))

/-! ## Operators -/

omit hexpr in
theorem sound_leftGrouped (level : Level) {operand : Parser Expr}
    (hoperand : Sound operand (ExprOf .accepted level.operand)) :
    Sound (leftGrouped operand (operatorOf level)) (ExprOf .accepted level) := by
  have hnext : Sound (do let op ← spaced (operatorOf level); return (op, ← operand))
      fun ts (found : BinaryOp × Expr) => ∃ token us, ts = token :: us ∧
        (token, found.1) ∈ level.operators ∧ ExprOf .accepted level.operand us found.2 := by
    refine (sound_operator level).spaced.bind ?_
    rintro _ op ⟨token, rfl, hop⟩
    exact hoperand.bind fun us right hright => .pure ⟨token, us, by simp, hop, hright⟩
  -- The operands that follow extend whatever has been grouped before them.
  have hmany : Sound (many (do let op ← spaced (operatorOf level); return (op, ← operand)))
      fun ts more => ∀ us left, ExprOf .accepted level us left →
        ExprOf .accepted level (us ++ ts)
          (more.foldl (fun left next => .binary next.1 left next.2) left) := by
    refine hnext.many (fun us left hleft => by simpa using hleft) ?_
    rintro _ ⟨op, right⟩ us more ⟨token, vs, rfl, hop, hright⟩ hmore ws left hleft
    simpa using hmore _ _ (.binary hop hleft hright)
  refine hoperand.bind fun ts first hfirst => ?_
  exact hmany.bind fun us more hmore => .pure (by simpa using hmore ts first (.operand hfirst))

theorem sound_unionExpr : Sound (unionExpr expr) (ExprOf .accepted .union) :=
  sound_leftGrouped .union (sound_pathExpr hexpr)

theorem sound_unaryExpr : Sound (unaryExpr expr) (ExprOf .accepted .unary) := by
  have hsigns : Sound (many (spaced (char '-'))) fun ts signs => ∀ us e,
      ExprOf .accepted .unary us e →
        ExprOf .accepted .unary (ts ++ us) (signs.foldr (fun _ e => .negate e) e) := by
    refine (sound_char (by decide : ('-', "-") ∈ marks)).spaced.many (fun us e he => he) ?_
    rintro _ sign us signs rfl hsigns vs e he
    exact .negate (hsigns vs e he)
  refine hsigns.bind fun ts signs hts => ?_
  exact (sound_unionExpr hexpr).bind fun us e he =>
    .pure (by simpa using hts us e (.operand he))

theorem sound_orExpr : Sound (orExpr expr) (ExprOf .accepted .or) :=
  sound_leftGrouped .or <| sound_leftGrouped .and <| sound_leftGrouped .equality <|
    sound_leftGrouped .relational <| sound_leftGrouped .additive <|
      sound_leftGrouped .multiplicative (sound_unaryExpr hexpr)

end

/-! ## Whole expressions -/

theorem sound_exprWithin (depth : Nat) : Sound (exprWithin depth) (ExprOf .accepted .or) := by
  induction depth with
  | zero => exact .fail
  | succ depth ih => exact sound_orExpr ih

theorem sound_expr : Sound expr (ExprOf .accepted .or) :=
  fun s v rest h => sound_exprWithin (s.length + 1) s v rest h

end XPath.Parser

namespace XPath
open Grammar

/-- A text that is accepted reads as tokens of a derivation, up to white space at its end, and the
syntax tree is the one of this derivation. It is a derivation of the standard form if and only if no
slash stands in front of a separator. The brackets outside of literals are balanced. -/
theorem parse_derives {text : String} {e : Expr} (h : Expr.parse text = .ok e) :
    ∃ tokens, Scan (text.toList.rdropWhile Text.isSpace) tokens [] ∧
      ExprOf .accepted .or tokens e ∧
      (ExprOf .standard .or tokens e ↔ SlashesApart tokens) ∧
      Balanced (brackets text.toList) := by
  unfold Expr.parse at h
  dsimp only at h
  split at h
  · next e' rest hresult =>
    split at h
    · next hrest =>
      obtain rfl := Except.ok.inj h
      have hspace : ∀ c ∈ rest, Text.isSpace c = true :=
        List.dropWhile_eq_nil_iff.mp (List.isEmpty_iff.mp hrest)
      obtain ⟨tokens, hscan, hderives⟩ := Parser.sound_expr _ _ _ hresult
      refine ⟨tokens, hscan.rdropWhile hspace, hderives, standard_iff_slashesApart hderives, ?_⟩
      have hnone : brackets rest = [] := brackets_of_isSpace hspace
      have hbalanced := hderives.balanced
      unfold BalancedTokens at hbalanced
      rwa [hscan.brackets_eq, hnone, List.append_nil]
    · split at h <;> cases h
  · cases h

/-- That a text is accepted can be computed. -/
theorem exists_parse {text : String} (h : (Expr.parse text).toOption.isSome = true) :
    ∃ e, Expr.parse text = .ok e := by
  cases hparse : Expr.parse text with
  | error error =>
    rw [hparse] at h
    cases h
  | ok e => exact ⟨e, rfl⟩

theorem parse_derives_division :
    ∃ e, Expr.parse "-a div (b)[1] " = .ok e ∧
      ∃ tokens, Scan ("-a div (b)[1] ".toList.rdropWhile Text.isSpace) tokens [] ∧
        ExprOf .accepted .or tokens e ∧
        (ExprOf .standard .or tokens e ↔ SlashesApart tokens) ∧
        Balanced (brackets "-a div (b)[1] ".toList) := by
  obtain ⟨e, he⟩ := @exists_parse "-a div (b)[1] " (by decide +kernel)
  exact ⟨e, he, parse_derives he⟩

/-- The accepted form is larger: two slashes with a blank between them have no derivation of the
standard form, whatever their syntax tree. -/
theorem lone_slash_accepted :
    (∃ e, Expr.parse "/ /a" = .ok e) ∧
      ∀ tokens e, Scan "/ /a".toList tokens [] → ¬ ExprOf .standard .or tokens e := by
  refine ⟨exists_parse (by decide +kernel), fun tokens e hscan hderives => ?_⟩
  exact Scan.not_slashesApart rfl hscan hderives.slashesApart

end XPath
