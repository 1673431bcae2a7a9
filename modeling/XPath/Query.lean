import XPath.Document.Error
import XPath.Eval.Basic
import XPath.Expr.Kind
import XPath.Result.Basic
/-! Queries on documents: compiled expressions, evaluators with their own functions and namespaces,
and the short ways to ask a document for nodes. -/
namespace XPath
set_option autoImplicit false

/-! ## Compiled expressions -/

structure Query where
  source : String
  expr : Expr

namespace Query

def compile (text : String) : Except ResultError Query :=
  match Expr.parse text with
  | .ok expr => .ok ⟨text, expr⟩
  | .error error => .error (.malformed error)

end Query

/-! ## Evaluators -/

structure Evaluator where
  functions : FunctionLibrary
  /-- Used where an evaluation brings no resolver of its own. -/
  resolver : Option Resolver

namespace Evaluator

/-- The core functions and no resolver. -/
def core : Evaluator := ⟨.core, none⟩

/-- The core functions with extensions, a later one of a name replacing the earlier. A resolver of
its own takes the place of single namespace bindings. -/
def build (extensions : List (String × Extension)) (namespaces : List (String × String))
    (resolver : Option Resolver) : Evaluator where
  functions := extensions.foldl (fun library entry => library.register entry.1 entry.2) .core
  resolver := resolver <|>
    if namespaces.isEmpty then none
    else some fun qualifier =>
      (namespaces.reverse.find? fun entry => entry.1 == qualifier).map Prod.snd

/-- How descriptions write an evaluator. -/
def describe (evaluator : Evaluator) : String :=
  "XPathEvaluator \x7b functions: " ++ evaluator.functions.describe ++
    ", has_namespace_resolver: " ++ toString evaluator.resolver.isSome ++ " \x7d"

/-- Evaluates an expression at a node. The caller's resolver goes before the evaluator's. -/
def evaluate (evaluator : Evaluator) (query : Query) (d : Document) (context : NodeId)
    (resolver : Option Resolver) (requested : ResultType) (bindings : String → Option Value) :
    Except ResultError Result :=
  let scope := Scope.startingAt d context evaluator.functions bindings
    (resolver <|> evaluator.resolver)
  match query.expr.evaluate scope (.on context) with
  | .ok value => value.materialize d requested
  | .error error => .error (.evaluation error)

end Evaluator

/-! ## Documents -/

inductive QueryError where
  | document (error : DocumentError)
  | result (error : ResultError)
  deriving DecidableEq, Repr

namespace QueryError

def category : QueryError → ErrorCategory
  | document _ => .other
  | result error => error.category

def message : QueryError → String
  | document error => "Document error: " ++ error.message
  | result error => error.message

end QueryError

/-- Evaluates a compiled expression with the core functions. -/
def Query.run (query : Query) (d : Document) (context : NodeId) (resolver : Option Resolver)
    (requested : ResultType) : Except QueryError Result := do
  let _ ← (d.node context).mapError .document
  (Evaluator.core.evaluate query d context resolver requested fun _ => none).mapError .result

namespace Document

/-- Compiles and evaluates an expression with the core functions. -/
def evaluate (d : Document) (text : String) (context : NodeId) (resolver : Option Resolver)
    (requested : ResultType) : Except QueryError Result := do
  let query ← (Query.compile text).mapError .result
  query.run d context resolver requested

/-- The nodes that an expression selects, in document order. -/
def selectNodes (d : Document) (text : String) (context : NodeId) :
    Except QueryError (List NodeId) := do
  let result ← d.evaluate text context none .orderedSnapshot
  result.snapshot.mapError .result

/-- The first node in document order that an expression selects. -/
def selectFirst (d : Document) (text : String) (context : NodeId) :
    Except QueryError (Option NodeId) := do
  let result ← d.evaluate text context none .firstNode
  result.singleNodeValue.mapError .result

end Document
end XPath
