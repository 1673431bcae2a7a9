import XPath.Document.Axis
import XPath.Eval.Scope
/-! Which nodes of an axis a node test lets through. -/
namespace XPath
set_option autoImplicit false

/-- What a name test demands besides the local part of a name. -/
inductive Qualification where
  | any
  /-- The node's namespace. -/
  | uri (uri : String)
  /-- The prefix with which the node's name is written. -/
  | written (qualifier : String)
  deriving DecidableEq, Repr

namespace Qualification

def admits (d : Document) (id : NodeId) : Qualification → Bool
  | any => true
  | uri expected => d.uri? id == some expected
  | written qualifier => (d.name? id).any fun name => name.qualifier == some qualifier

end Qualification

namespace NodeTest

/-- The prefix that a test is written with. -/
def qualifier? : NodeTest → Option String
  | name expected => expected.qualifier
  | anyWith qualifier => some qualifier
  | _ => none

/-- What the prefix of a test demands. A resolver has to know every prefix. -/
def qualification (resolver : Option Resolver) (test : NodeTest) :
    Except EvalError Qualification :=
  match test.qualifier?, resolver with
  | none, _ => .ok .any
  | some qualifier, none => .ok (.written qualifier)
  | some qualifier, some resolve =>
    match resolve qualifier with
    | some uri => .ok (.uri uri)
    | none => .error (.unknownQualifier qualifier)

/-- Whether a node is of the kind that names on this axis are about. -/
def isPrincipal (d : Document) (axis : Axis) (id : NodeId) : Bool :=
  match axis with
  | .attribute => d.isAttribute id
  | .namespaceNode => false
  | _ => d.isElement id

def hasLocalPart (d : Document) (id : NodeId) (localPart : String) : Bool :=
  (d.name? id).any fun name => name.localPart == localPart

/-- Whether a node found on an axis passes the test. -/
def passes (d : Document) (axis : Axis) (qualification : Qualification) (test : NodeTest)
    (id : NodeId) : Bool :=
  match test with
  | anyName => isPrincipal d axis id
  | anyWith _ => isPrincipal d axis id && qualification.admits d id
  | name expected =>
    isPrincipal d axis id && hasLocalPart d id expected.localPart && qualification.admits d id
  | text => (d.kind? id).any NodeKind.isText
  | comment => (d.kind? id).any NodeKind.isComment
  | node => true
  | instruction target =>
    (d.kind? id).any NodeKind.isInstruction && target.all (hasLocalPart d id)

end NodeTest
end XPath
