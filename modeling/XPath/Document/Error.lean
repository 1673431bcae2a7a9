import XPath.Document.Basic
/-! Why an operation on a document fails. -/
namespace XPath
set_option autoImplicit false

inductive DocumentError where
  | unknownNode (id : NodeId)
  | notContainer (id : NodeId)
  | notInsertable (id : NodeId)
  | ancestor (child parent : NodeId)
  | notElement (id : NodeId)
  | notChild (child parent : NodeId)
  | noData (kind : NodeKind)
  deriving DecidableEq, Repr

namespace DocumentError

/-- The classes of failures. -/
inductive Class where
  | hierarchy
  | notFound
  | unknownNode
  | invalidModification
  deriving DecidableEq, Repr

def toClass : DocumentError → Class
  | unknownNode _ => .unknownNode
  | notContainer _ => .hierarchy
  | notInsertable _ => .hierarchy
  | ancestor _ _ => .hierarchy
  | notElement _ => .hierarchy
  | notChild _ _ => .notFound
  | noData _ => .invalidModification

def message : DocumentError → String
  | unknownNode id => "Unknown node " ++ id.describe
  | notContainer id => "Hierarchy request error: " ++ id.describe ++ " cannot have children"
  | notInsertable id =>
    "Hierarchy request error: " ++ id.describe ++ " cannot be inserted as a child"
  | ancestor child parent =>
    "Hierarchy request error: " ++ child.describe ++ " is an ancestor of " ++ parent.describe
  | notElement id =>
    "Hierarchy request error: attributes can only be set on elements, not " ++ id.describe
  | notChild child parent =>
    "Node not found: " ++ child.describe ++ " is not a child of " ++ parent.describe
  | noData kind => "Invalid modification: cannot set character data on " ++ kind.describe

end DocumentError

/-- Looks a node up. -/
def Document.node (d : Document) (id : NodeId) : Except DocumentError Node :=
  match d.node? id with
  | some node => .ok node
  | none => .error (.unknownNode id)

end XPath
