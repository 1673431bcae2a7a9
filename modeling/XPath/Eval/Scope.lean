import XPath.Function.Library
/-! Where an expression is evaluated: the scope, which stays the same throughout one evaluation, and
the focus, which every predicate sets anew. -/
namespace XPath
set_option autoImplicit false

/-- Finds the namespace that a prefix stands for. -/
abbrev Resolver := String → Option String

structure Scope where
  document : Document
  /-- Where absolute paths begin. -/
  root : NodeId
  functions : FunctionLibrary
  /-- The values of variables. -/
  bindings : String → Option Value
  /-- Without a resolver, prefixes are compared as they are written. -/
  resolver : Option Resolver

/-- A node, its position among the nodes that are tested together, and their number. -/
structure Focus where
  node : NodeId
  position : Nat
  size : Nat
  deriving DecidableEq, Repr

namespace Scope

/-- The scope of an evaluation that starts at `node`: its root is the top of that node's tree. -/
def startingAt (document : Document) (node : NodeId) (functions : FunctionLibrary)
    (bindings : String → Option Value) (resolver : Option Resolver) : Scope :=
  ⟨document, document.top node, functions, bindings, resolver⟩

end Scope

/-- The focus on a single node. -/
def Focus.on (node : NodeId) : Focus := ⟨node, 1, 1⟩

end XPath
