import XPath.Grammar.Chain
/-! Location paths as they are written. A step may be abbreviated, and blanks may stand around
separators, axes and brackets. What a written path means is a syntax tree, where nothing is
abbreviated; expanding the abbreviations gives another way to write the path. -/
namespace XPath.Grammar
set_option autoImplicit false

def noBlanks : Blanks := ⟨[], by simp⟩

/-! ## Steps -/

inductive WrittenTest where
  | anyName
  | anyWith (qualifier : String) (simple : IsSimpleName qualifier.toList)
  | name (expected : QName) (proper : IsProperName expected)
  /-- A node type, with blanks before and in its parentheses. -/
  | type (kind : String) (test : NodeTest) (known : (kind, test) ∈ nodeTypes)
    (before inside : Blanks)
  /-- A processing instruction with a target, with blanks before the parenthesis and around the
  literal. -/
  | instruction (target : String) (quote : Char) (before inside behind : Blanks)
    (isQuote : quote = '\'' ∨ quote = '"') (apart : quote ∉ target.toList)

namespace WrittenTest

def text : WrittenTest → List Char
  | anyName => ['*']
  | anyWith qualifier _ => qualifier.toList ++ [':', '*']
  | name expected _ => expected.text.toList
  | type kind _ _ before inside => kind.toList ++ (before.val ++ '(' :: (inside.val ++ [')']))
  | instruction target quote before inside behind _ _ =>
    "processing-instruction".toList ++ (before.val ++ '(' ::
      (inside.val ++ quote :: (target.toList ++ quote :: (behind.val ++ [')']))))

def test : WrittenTest → NodeTest
  | anyName => .anyName
  | anyWith qualifier _ => .anyWith qualifier
  | name expected _ => .name expected
  | type _ test _ _ _ => test
  | instruction target .. => .instruction (some target)

def anyNode : WrittenTest := type "node" .node (by decide) noBlanks noBlanks

end WrittenTest

inductive WrittenAxis where
  /-- The name of an axis, with blanks before and after the colons. -/
  | named (axis : Axis) (before after : Blanks)
  /-- `@` for the attribute axis. -/
  | atSign (after : Blanks)
  /-- Nothing for the child axis. -/
  | omitted

namespace WrittenAxis

def text : WrittenAxis → List Char
  | named axis before after => axis.name.toList ++ (before.val ++ ':' :: ':' :: after.val)
  | atSign after => '@' :: after.val
  | omitted => []

def axis : WrittenAxis → Axis
  | named axis _ _ => axis
  | atSign _ => .attribute
  | omitted => .child

def expanded : WrittenAxis → WrittenAxis
  | named axis before after => named axis before after
  | atSign after => named .attribute noBlanks after
  | omitted => named .child noBlanks noBlanks

end WrittenAxis

structure WrittenPredicate where
  before : Blanks
  condition : Enclosed

def WrittenPredicate.text (predicate : WrittenPredicate) : List Char :=
  predicate.before.val ++ '[' :: (predicate.condition.text ++ [']'])

inductive WrittenStep where
  | full (axis : WrittenAxis) (test : WrittenTest) (predicates : List WrittenPredicate)
  | self
  | parent

/-- Another text for every expression in brackets, which stays the same expression. -/
abbrev Rewording : Type :=
  { reword : Enclosed → Enclosed // ∀ inner, (reword inner).expr = inner.expr }

namespace WrittenStep

def text : WrittenStep → List Char
  | full axis test predicates =>
    axis.text ++ (test.text ++ predicates.flatMap WrittenPredicate.text)
  | self => ['.']
  | parent => ['.', '.']

def step : WrittenStep → Step
  | full axis test predicates => .mk axis.axis test.test (predicates.map (·.condition.expr))
  | self => .toAny .self
  | parent => .toAny .parent

def toAny (axis : Axis) : WrittenStep := full (.named axis noBlanks noBlanks) .anyNode []

def expanded (reword : Rewording) : WrittenStep → WrittenStep
  | full axis test predicates =>
    full axis.expanded test (predicates.map fun p => ⟨p.before, reword.val p.condition⟩)
  | self => toAny .self
  | parent => toAny .parent

/-- The axis is named. -/
def IsExpanded : WrittenStep → Prop
  | full (.named ..) _ _ => True
  | _ => False

end WrittenStep

/-! ## Paths -/

/-- A step with the separator before it, which may be a double one. -/
structure Segment where
  before : Blanks
  double : Bool
  after : Blanks
  step : WrittenStep

namespace Segment

def text (segment : Segment) : List Char :=
  segment.before.val ++ (if segment.double then ['/', '/'] else ['/']) ++
    (segment.after.val ++ segment.step.text)

def steps (segment : Segment) : List Step :=
  if segment.double then [.toAny .descendantOrSelf, segment.step.step] else [segment.step.step]

def expanded (reword : Rewording) (segment : Segment) : List Segment :=
  if segment.double then
    [⟨segment.before, false, noBlanks, .toAny .descendantOrSelf⟩,
      ⟨noBlanks, false, segment.after, segment.step.expanded reword⟩]
  else [⟨segment.before, false, segment.after, segment.step.expanded reword⟩]

end Segment

inductive WrittenStart where
  /-- A relative path begins with a step. -/
  | context (first : WrittenStep)
  | root
  /-- An expression in parentheses. -/
  | nodes (start : Enclosed)

namespace WrittenStart

def text : WrittenStart → List Char
  | context first => first.text
  | root => []
  | nodes start => '(' :: (start.text ++ [')'])

def start : WrittenStart → Start
  | context _ => .context
  | root => .root
  | nodes start => .nodes start.expr

/-- The step that the start itself writes. -/
def steps : WrittenStart → List Step
  | context first => [first.step]
  | root => []
  | nodes _ => []

def expanded (reword : Rewording) : WrittenStart → WrittenStart
  | context first => context (first.expanded reword)
  | root => root
  | nodes start => nodes (reword.val start)

def IsExpanded : WrittenStart → Prop
  | context first => first.IsExpanded
  | root => True
  | nodes _ => True

end WrittenStart

/-- A path of at least one step, with blanks around it. -/
structure WrittenPath where
  front : Blanks
  start : WrittenStart
  segments : List Segment
  back : Blanks
  isLong : start.steps ≠ [] ∨ segments ≠ []

namespace WrittenPath

def text (path : WrittenPath) : List Char :=
  path.front.val ++ (path.start.text ++ (path.segments.flatMap Segment.text ++ path.back.val))

def expr (path : WrittenPath) : Expr :=
  .path path.start.start (path.start.steps ++ path.segments.flatMap Segment.steps)

/-- The same path with every abbreviation expanded. -/
def expanded (reword : Rewording) (path : WrittenPath) : WrittenPath where
  front := path.front
  start := path.start.expanded reword
  segments := path.segments.flatMap (Segment.expanded reword)
  back := path.back
  isLong := by
    refine path.isLong.imp ?_ fun hne hnil => hne ?_
    · cases path.start <;> simp [WrittenStart.steps, WrittenStart.expanded]
    · refine List.eq_nil_iff_forall_not_mem.mpr fun segment hsegment => ?_
      have hempty := List.flatMap_eq_nil_iff.mp hnil segment hsegment
      unfold Segment.expanded at hempty
      split at hempty <;> cases hempty

/-- Every axis is named and every separator is a single one. -/
def IsExpanded (path : WrittenPath) : Prop :=
  path.start.IsExpanded ∧
    ∀ segment ∈ path.segments, segment.double = false ∧ segment.step.IsExpanded

end WrittenPath
end XPath.Grammar
