/-! The core function library: names, kinds of result and numbers of arguments. -/
namespace XPath
set_option autoImplicit false

/-! ## Kinds of value -/

inductive Kind where
  | nodeSet
  | number
  | string
  | boolean
  deriving DecidableEq, Repr

def Kind.text : Kind → String
  | nodeSet => "node-set"
  | number => "number"
  | string => "string"
  | boolean => "boolean"

/-! ## Numbers of arguments -/

/-- How many arguments a function takes. -/
structure Arity where
  least : Nat
  /-- `none` stands for any number from `least` on. -/
  most : Option Nat
  deriving DecidableEq, Repr

namespace Arity

def exactly (n : Nat) : Arity := ⟨n, some n⟩

def allows (arity : Arity) (n : Nat) : Bool := arity.least ≤ n && arity.most.all (n ≤ ·)

/-- How messages write an arity. -/
def text (arity : Arity) : String :=
  match arity.most with
  | none => "at least " ++ toString arity.least ++ " arguments"
  | some most =>
    if arity.least = most then
      toString most ++ " argument" ++ (if most = 1 then "" else "s")
    else toString arity.least ++ " or " ++ toString most ++ " arguments"

end Arity

/-! ## Functions -/

inductive CoreFunction where
  | last | position | count | id | localName | namespaceUri | qualifiedName
  | string | concat | startsWith | contains | substringBefore | substringAfter | substring
  | stringLength | normalizeSpace | translate
  | boolean | negation | truth | falsehood | lang
  | number | sum | floor | ceiling | round
  deriving DecidableEq, Repr

namespace CoreFunction

def all : List CoreFunction :=
  [last, position, count, id, localName, namespaceUri, qualifiedName, string, concat, startsWith,
    contains, substringBefore, substringAfter, substring, stringLength, normalizeSpace, translate,
    boolean, negation, truth, falsehood, lang, number, sum, floor, ceiling, round]

theorem mem_all (f : CoreFunction) : f ∈ all := by cases f <;> decide

/-- The name by which expressions call the function. -/
def name : CoreFunction → String
  | last => "last"
  | position => "position"
  | count => "count"
  | id => "id"
  | localName => "local-name"
  | namespaceUri => "namespace-uri"
  | qualifiedName => "name"
  | string => "string"
  | concat => "concat"
  | startsWith => "starts-with"
  | contains => "contains"
  | substringBefore => "substring-before"
  | substringAfter => "substring-after"
  | substring => "substring"
  | stringLength => "string-length"
  | normalizeSpace => "normalize-space"
  | translate => "translate"
  | boolean => "boolean"
  | negation => "not"
  | truth => "true"
  | falsehood => "false"
  | lang => "lang"
  | number => "number"
  | sum => "sum"
  | floor => "floor"
  | ceiling => "ceiling"
  | round => "round"

def ofName? (name : String) : Option CoreFunction := all.find? fun f => f.name == name

/-- The kind of every value that the function returns. -/
def kind : CoreFunction → Kind
  | id => .nodeSet
  | last | position | count | stringLength | number | sum | floor | ceiling | round => .number
  | localName | namespaceUri | qualifiedName | string | concat | substringBefore
  | substringAfter | substring | normalizeSpace | translate => .string
  | startsWith | contains | boolean | negation | truth | falsehood | lang => .boolean

def arity : CoreFunction → Arity
  | last | position | truth | falsehood => .exactly 0
  | count | id | boolean | negation | lang | sum | floor | ceiling | round => .exactly 1
  | startsWith | contains | substringBefore | substringAfter => .exactly 2
  | translate => .exactly 3
  | localName | namespaceUri | qualifiedName | string | stringLength | normalizeSpace | number =>
    ⟨0, some 1⟩
  | substring => ⟨2, some 3⟩
  | concat => ⟨2, none⟩

end CoreFunction
end XPath
