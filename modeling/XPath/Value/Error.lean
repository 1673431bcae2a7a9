import XPath.Axis
import XPath.Function.Core
/-! Why the evaluation of an expression fails. -/
namespace XPath
set_option autoImplicit false

inductive EvalError where
  | wrongArity (function : String) (arity : Arity) (count : Nat)
  | argumentNotNodeSet (function : String) (kind : Kind)
  /-- A failure that an extension function reports in its own words. -/
  | functionFailed (function message : String)
  | unknownFunction (name : String)
  | notNodeSet (purpose : String) (kind : Kind)
  /-- A type error that an extension function reports in its own words. -/
  | typeFailed (message : String)
  | unknownVariable (name : String)
  | unknownQualifier (qualifier : String)
  | unsupportedAxis (axis : Axis)
  deriving DecidableEq, Repr

namespace EvalError

/-- The classes of failed evaluations. -/
inductive Class where
  | function
  | unknownFunction
  | type
  | unknownVariable
  | unknownQualifier
  | unsupportedAxis
  deriving DecidableEq, Repr

def toClass : EvalError → Class
  | wrongArity .. => .function
  | argumentNotNodeSet .. => .function
  | functionFailed .. => .function
  | unknownFunction _ => .unknownFunction
  | notNodeSet .. => .type
  | typeFailed _ => .type
  | unknownVariable _ => .unknownVariable
  | unknownQualifier _ => .unknownQualifier
  | unsupportedAxis _ => .unsupportedAxis

private def functionMessage (function message : String) : String :=
  "Function '" ++ function ++ "' error: " ++ message

def message : EvalError → String
  | wrongArity function arity count =>
    functionMessage (function ++ "()") ("Expected " ++ arity.text ++ ", got " ++ toString count)
  | argumentNotNodeSet function kind =>
    functionMessage (function ++ "()") ("argument must be a node-set, got a " ++ kind.text)
  | functionFailed function message => functionMessage function message
  | unknownFunction name => "Unknown XPath function '" ++ name ++ "'"
  | notNodeSet purpose kind =>
    "Type error: " ++ purpose ++ " requires a node-set, got a " ++ kind.text
  | typeFailed message => "Type error: " ++ message
  | unknownVariable name => "Variable '" ++ name ++ "' not found"
  | unknownQualifier qualifier => "Namespace prefix '" ++ qualifier ++ "' cannot be resolved"
  | unsupportedAxis axis => "The '" ++ axis.name ++ "' axis is not supported by this document"

end EvalError
end XPath
