import XPath.Eval.NodeTest
import XPath.Expr.Everywhere
import XPath.Expr.Kind
/-! Well-typed expressions: every call fits its core function, and node-sets stand where node-sets
are needed. What an expression demands of itself is told apart from what it demands of the
expressions inside of it. -/
namespace XPath
set_option autoImplicit false

/-- Functions whose arguments have to be node-sets. -/
def CoreFunction.takesNodeSet : CoreFunction → Bool
  | count | sum | localName | namespaceUri | qualifiedName => true
  | _ => false

/-- What an expression demands of itself. -/
def Expr.Fits : Expr → Prop
  | .reference _ => False
  | .call name args => ∃ function, CoreFunction.ofName? name = some function ∧
      function.arity.allows args.length ∧
      (function.takesNodeSet → ∀ arg ∈ args, arg.kind? = some .nodeSet)
  | .binary .union left right => left.kind? = some .nodeSet ∧ right.kind? = some .nodeSet
  | .filter primary _ => primary.kind? = some .nodeSet
  | .path (.nodes primary) _ => primary.kind? = some .nodeSet
  | _ => True

/-- What a step demands of its axis and of the resolver, if there is one. -/
def Step.Fits (resolver : Option Resolver) : Step → Prop
  | .mk axis test _ => axis ≠ .namespaceNode ∧
      ∀ resolve ∈ resolver, ∀ qualifier ∈ test.qualifier?, (resolve qualifier).isSome

/-- Everything inside of the expression fits. -/
def Expr.WellTyped (resolver : Option Resolver) (e : Expr) : Prop :=
  e.Everywhere Expr.Fits (Step.Fits resolver)

end XPath
