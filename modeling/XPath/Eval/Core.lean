import XPath.Eval.Scope
import XPath.Text.Function
/-! What the core functions compute. -/
namespace XPath
set_option autoImplicit false

namespace Document

/-! ## Elements by identifier -/

/-- Whether a node is an attribute that may identify its element. -/
def isIdentifier (d : Document) (id : NodeId) : Bool :=
  (d.name? id).any fun name =>
    (name.qualifier == some "xml" || name.qualifier == none) && name.localPart == "id"

/-- Whether a node is an element with an identifier among `tokens`. -/
def isIdentifiedBy (d : Document) (tokens : List (List Char)) (id : NodeId) : Bool :=
  d.isElement id && (d.attributes id).any fun attr =>
    d.isIdentifier attr && tokens.contains (Text.trim Text.isSpace (d.stringValue attr).toList)

/-- The elements of the tree under `root` with an identifier among the words of `texts`. -/
def identified (d : Document) (root : NodeId) (texts : List String) : List NodeId :=
  let tokens := texts.flatMap fun text => Text.words Text.isSpace text.toList
  (d.subtree root).filter (d.isIdentifiedBy tokens)

/-! ## Language -/

/-- The language that a node itself declares. -/
def declaredLanguage? (d : Document) (id : NodeId) : Option String :=
  ((d.attributes id).find? fun attr =>
    d.name? attr == some ⟨some "xml", "lang"⟩).map d.stringValue

/-- The language of an element: what it or its nearest ancestor with a declaration declares. Other
nodes have the language of their parent. -/
def language? (d : Document) (id : NodeId) : Option String :=
  let holders := if d.isElement id then id :: d.ancestors id else d.ancestors id
  holders.findSome? d.declaredLanguage?

end Document

namespace CoreFunction

/-! ## Arguments -/

/-- The members of an argument that has to be a node-set. -/
def nodeSetArgument (function : CoreFunction) : Value → Except EvalError (List NodeId)
  | .nodes ids => .ok ids
  | value => .error (.argumentNotNodeSet function.name value.kind)

/-- What a name function says about the first member of its argument, nothing of an empty one. -/
def ofFirst (function : CoreFunction) (d : Document) (describe : NodeId → String) (arg : Value) :
    Except EvalError Value := do
  let ids ← function.nodeSetArgument arg
  return .string (((d.first? ids).map describe).getD "")

def localNameOf (d : Document) (id : NodeId) : String := ((d.name? id).map QName.localPart).getD ""

def namespaceUriOf (d : Document) (id : NodeId) : String := (d.uri? id).getD ""

def qualifiedNameOf (d : Document) (id : NodeId) : String := ((d.name? id).map QName.text).getD ""

def normalizeText (s : String) : Value :=
  .string (String.ofList (Text.normalizeSpace s.toList))

def lengthOf (s : String) : Value := .number (.ofNat s.length)

/-- The sum of the numbers that the members' string values write. It starts from the negative zero,
which adds nothing to any number. -/
def sumOf (d : Document) (ids : List NodeId) : Number :=
  ids.foldl (fun total id => total.add (.parse (d.stringValue id))) .negativeZero

/-! ## Application -/

/-- Applies a core function. Other numbers of arguments than the listed ones fail. -/
def apply (function : CoreFunction) (scope : Scope) (focus : Focus) (args : List Value) :
    Except EvalError Value :=
  let d := scope.document
  match function, args with
  | last, [] => .ok (.number (.ofNat focus.size))
  | position, [] => .ok (.number (.ofNat focus.position))
  | count, [arg] => do return .number (.ofNat (← count.nodeSetArgument arg).length)
  | id, [.nodes ids] => .ok (.nodes (d.identified scope.root (ids.map d.stringValue)))
  | id, [arg] => .ok (.nodes (d.identified scope.root [arg.toText d]))
  | localName, [] => .ok (.string (localNameOf d focus.node))
  | localName, [arg] => localName.ofFirst d (localNameOf d) arg
  | namespaceUri, [] => .ok (.string (namespaceUriOf d focus.node))
  | namespaceUri, [arg] => namespaceUri.ofFirst d (namespaceUriOf d) arg
  | qualifiedName, [] => .ok (.string (qualifiedNameOf d focus.node))
  | qualifiedName, [arg] => qualifiedName.ofFirst d (qualifiedNameOf d) arg
  | string, [] => .ok (.string (d.stringValue focus.node))
  | string, [arg] => .ok (.string (arg.toText d))
  | concat, first :: second :: more =>
    .ok (.string (String.join ((first :: second :: more).map (Value.toText d))))
  | startsWith, [s, start] => .ok (.boolean (Text.startsWith (s.toText d) (start.toText d)))
  | contains, [s, part] => .ok (.boolean (Text.contains (s.toText d) (part.toText d)))
  | substringBefore, [s, part] => .ok (.string (Text.substringBefore (s.toText d) (part.toText d)))
  | substringAfter, [s, part] => .ok (.string (Text.substringAfter (s.toText d) (part.toText d)))
  | substring, [s, start] => .ok (.string (Text.substring (s.toText d) (start.toNumber d) none))
  | substring, [s, start, length] =>
    .ok (.string (Text.substring (s.toText d) (start.toNumber d) (some (length.toNumber d))))
  | stringLength, [] => .ok (lengthOf (d.stringValue focus.node))
  | stringLength, [arg] => .ok (lengthOf (arg.toText d))
  | normalizeSpace, [] => .ok (normalizeText (d.stringValue focus.node))
  | normalizeSpace, [arg] => .ok (normalizeText (arg.toText d))
  | translate, [s, source, target] =>
    .ok (.string (Text.translate (s.toText d) (source.toText d) (target.toText d)))
  | boolean, [arg] => .ok (.boolean arg.truth)
  | negation, [arg] => .ok (.boolean !arg.truth)
  | truth, [] => .ok (.boolean true)
  | falsehood, [] => .ok (.boolean false)
  | lang, [arg] =>
    .ok (.boolean ((d.language? focus.node).any (Text.languageMatches · (arg.toText d))))
  | number, [] => .ok (.number (.parse (d.stringValue focus.node)))
  | number, [arg] => .ok (.number (arg.toNumber d))
  | sum, [arg] => do return .number (sumOf d (← sum.nodeSetArgument arg))
  | floor, [arg] => .ok (.number (arg.toNumber d).floor)
  | ceiling, [arg] => .ok (.number (arg.toNumber d).ceiling)
  | round, [arg] => .ok (.number (arg.toNumber d).round)
  | function, args => .error (.wrongArity function.name function.arity args.length)

end CoreFunction

/-- Runs the function that a call names. -/
def Scope.call (scope : Scope) (focus : Focus) (name : String) (args : List Value) :
    Except EvalError Value :=
  match scope.functions.find? name with
  | none => .error (.unknownFunction name)
  | some (.core function) => function.apply scope focus args
  | some (.extension run) => Value.ofScalar <$> run (args.map (Value.toScalar scope.document))

end XPath
