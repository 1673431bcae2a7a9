import XPath.Number.Arithmetic
import XPath.Text.Blank
import XPath.Text.Lowercase
import XPath.Text.Search
/-! The functions on texts. Positions count characters from one. -/
namespace XPath.Text
set_option autoImplicit false

def startsWith (s start : String) : Bool := start.toList.isPrefixOf s.toList

def contains (s part : String) : Bool := (splitAtFirst? part.toList s.toList).isSome

/-- What stands before the first occurrence of `part`; empty if there is none. -/
def substringBefore (s part : String) : String :=
  ((splitAtFirst? part.toList s.toList).map fun found => String.ofList found.1).getD ""

/-- What stands after the first occurrence of `part`; empty if there is none. -/
def substringAfter (s part : String) : String :=
  ((splitAtFirst? part.toList s.toList).map fun found => String.ofList found.2).getD ""

/-- The characters from position `first` on whose position lies in the bounds, the upper one
excluded. -/
def sliceFrom (low high : Number) : Nat → List Char → List Char
  | _, [] => []
  | position, c :: rest =>
    let more := sliceFrom low high (position + 1) rest
    let here := Number.ofNat position
    if low.le here && here.lt high then c :: more else more

/-- The characters from the rounded start on, as many as the rounded length says. A bound that is
not a number selects nothing. -/
def substring (s : String) (start : Number) (length : Option Number) : String :=
  let low := start.round
  let high :=
    match length with
    | some n => low.add n.round
    | none => .infinite false
  String.ofList (sliceFrom low high 1 s.toList)

/-- What a character becomes: the first occurrence in `source` decides, and a character without a
counterpart in `target` is dropped. -/
def translateChar (source target : List Char) (c : Char) : Option Char :=
  match source.idxOf? c with
  | some i => target[i]?
  | none => some c

def translate (s source target : String) : String :=
  String.ofList (s.toList.filterMap (translateChar source.toList target.toList))

/-- Whether a declared language is the tested one or one of its variants, without regard to case. -/
def languageMatches (declared tested : String) : Bool :=
  let declared := lower declared.toList
  let tested := lower tested.toList
  declared == tested || (tested.isPrefixOf? declared).any fun rest => rest.head? == some '-'

end XPath.Text
