import XPath.Value.Operator
/-! Function libraries: what a call by name runs. A library maps names to core functions and to
extension functions, which see their arguments without nodes. -/
namespace XPath
set_option autoImplicit false

/-- An extension function. A node-set argument arrives as its text. -/
abbrev Extension := List Scalar → Except EvalError Scalar

inductive Callee where
  | core (function : CoreFunction)
  | extension (run : Extension)

/-- The functions that calls may name, each name once. -/
structure FunctionLibrary where
  entries : List (String × Callee)

namespace FunctionLibrary

/-- No function at all. -/
def empty : FunctionLibrary := ⟨[]⟩

def core : FunctionLibrary := ⟨CoreFunction.all.map fun f => (f.name, .core f)⟩

def find? (library : FunctionLibrary) (name : String) : Option Callee :=
  (library.entries.find? fun entry => entry.1 == name).map Prod.snd

def contains (library : FunctionLibrary) (name : String) : Bool := (library.find? name).isSome

/-- Adds an extension function in place of any function of the same name. -/
def register (library : FunctionLibrary) (name : String) (run : Extension) : FunctionLibrary :=
  ⟨(name, .extension run) :: library.entries.filter fun entry => entry.1 != name⟩

/-- The names in increasing order. -/
def names (library : FunctionLibrary) : List String :=
  (library.entries.map Prod.fst).mergeSort fun a b => decide (a ≤ b)

/-- How descriptions write a library. -/
def describe (library : FunctionLibrary) : String :=
  "FunctionRegistry \x7b functions: [" ++ ", ".intercalate (library.names.map Text.quoted) ++
    "] \x7d"

/-- The libraries that callers can have: no functions or the core functions, with any extensions. -/
inductive Reachable : FunctionLibrary → Prop
  | empty : Reachable .empty
  | core : Reachable .core
  | registered {library : FunctionLibrary} (name : String) (run : Extension) :
    Reachable library → Reachable (library.register name run)

end FunctionLibrary

/-- What an extension function sees of an argument. -/
def Value.toScalar (d : Document) : Value → Scalar
  | number value => .number value
  | boolean value => .boolean value
  | value => .string (value.toText d)

end XPath
