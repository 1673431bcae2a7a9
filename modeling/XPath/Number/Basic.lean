/-! XPath numbers: the binary64 values with a single not-a-number. The finite magnitudes are
numbered from zero upwards in increasing order, so a number is a sign and an index, and every
finite value is a whole count of the least positive magnitude, `2 ^ -1074`. -/
namespace XPath
set_option autoImplicit false

/-- The count of finite magnitudes; the index past the last of them stands for infinity. -/
abbrev Number.limit : Nat := 2047 * Nat.pow 2 52

inductive Number where
  | nan
  | infinite (negative : Bool)
  | finite (negative : Bool) (index : Fin Number.limit)
  deriving DecidableEq, Repr

namespace Number

/-! ## Magnitudes -/

/-- The count of units in one. -/
def one : Nat := Nat.pow 2 1074

/-- The magnitude with the given index, in units. From one power of two to the next there are
`2 ^ 52` magnitudes, evenly spaced; below the least normal one the spacing stays one unit. -/
def units (index : Nat) : Nat :=
  if index < Nat.pow 2 52 then index
  else (Nat.pow 2 52 + index % Nat.pow 2 52) * Nat.pow 2 (index / Nat.pow 2 52 - 1)

/-- The whole number nearest to a quotient; a half goes to the even neighbour. -/
def divideToEven (n d : Nat) : Nat :=
  let q := n / d
  let twice := 2 * (n % d)
  if twice < d then q else if d < twice then q + 1 else q + q % 2

/-- The index of the magnitude nearest to `n / d` units; a half goes to the even index. -/
def nearestIndex (n d : Nat) : Nat :=
  let shift := (n / d).log2 - 52
  shift * Nat.pow 2 52 + divideToEven n (d * Nat.pow 2 shift)

/-! ## Construction -/

/-- Magnitudes past the last finite one are infinite. -/
def ofIndex (negative : Bool) (index : Nat) : Number :=
  if h : index < limit then .finite negative ⟨index, h⟩ else .infinite negative

/-- The number nearest to `n / d` units, with the given sign. -/
def ofUnits (negative : Bool) (n d : Nat) : Number :=
  ofIndex negative (nearestIndex n d)

/-- The number nearest to the fraction `n / d`, with the given sign. -/
def ofFraction (negative : Bool) (n d : Nat) : Number :=
  ofUnits negative (n * one) d

def ofNat (n : Nat) : Number := ofFraction false n 1

/-- Reads the interchange encoding: the sign in bit 63, the index below it. -/
def ofBits (bits : Nat) : Number :=
  let negative := bits / Nat.pow 2 63 % 2 == 1
  let index := bits % Nat.pow 2 63
  if limit < index then .nan else ofIndex negative index

def zero : Number := ofIndex false 0

def negativeZero : Number := ofIndex true 0

/-! ## Comparison -/

/-- The place of a number in the numeric order, `none` for not-a-number. Both zeros have place 0. -/
def place : Number → Option Int
  | nan => none
  | infinite negative => some (if negative then -(limit : Int) else limit)
  | finite negative index => some (if negative then -(index.val : Int) else index.val)

/-- Numeric equality: the zeros are equal, and not-a-number equals nothing. -/
def equals (x y : Number) : Bool :=
  match x.place, y.place with
  | some a, some b => a == b
  | _, _ => false

def lt (x y : Number) : Bool :=
  match x.place, y.place with
  | some a, some b => a < b
  | _, _ => false

def le (x y : Number) : Bool :=
  match x.place, y.place with
  | some a, some b => a ≤ b
  | _, _ => false

/-- Whether a number counts as true: it is neither zero nor not-a-number. -/
def truth (x : Number) : Bool :=
  match x.place with
  | some a => a != 0
  | none => false

end Number
end XPath
