import XPath.Number.Basic
/-! Writing numbers: the fewest decimal digits that read back to the number, and among those the
nearest to it, a half going up; written with a point where needed and never with an exponent. -/
namespace XPath.Number
set_option autoImplicit false

/-! ## The decimals that read back -/

/-- Whether `n / d` units lie in the interval that rounds to the magnitude with this index. Its
ends are the midpoints to the two neighbours and belong to it when the index is even. -/
def roundsTo (index n d : Nat) : Bool :=
  let low := (units (index - 1) + units index) * d
  let high := (units index + units (index + 1)) * d
  if index % 2 = 0 then low ≤ 2 * n && 2 * n ≤ high else low < 2 * n && 2 * n < high

/-- The grid of the multiples of `10 ^ exponent`, as multiples of `num / den` units. -/
structure Grid where
  num : Nat
  den : Nat

def Grid.ofExponent : Int → Grid
  | .ofNat e => ⟨Nat.pow 10 e * one, 1⟩
  | .negSucc e => ⟨one, Nat.pow 10 (e + 1)⟩

/-- The multiple of the grid that lies nearest to the magnitude and still rounds to it, if one
does. Only the two multiples around the magnitude can. -/
def onGrid? (index : Nat) (g : Grid) : Option Nat :=
  let below := units index * g.den / g.num
  let above := below + 1
  let nearer := 2 * (units index * g.den % g.num) < g.num
  let fits (m : Nat) := roundsTo index (m * g.num) g.den
  if fits below && (nearer || !fits above) then some below
  else if fits above then some above
  else none

/-- The digits, as a whole number, and the exponent of a decimal. The exponent falls from `e` on;
the first grid that has a multiple in the interval wins. -/
def shortestFrom (index : Nat) : Nat → Int → Nat × Int
  | 0, e => (0, e)
  | fuel + 1, e =>
    match onGrid? index (.ofExponent e) with
    | some m => (m, e)
    | none => shortestFrom index fuel (e - 1)

/-- The shortest decimal that reads back to the magnitude with this index. The search starts above
everything in the interval, and ends at `10 ^ -324`, whose grid is finer than one unit. -/
def shortest (index : Nat) : Nat × Int :=
  let places := (Nat.toDigits 10 (units (index + 1) / one)).length
  shortestFrom index (places + 325) places

/-! ## Text -/

/-- Writes `digits * 10 ^ exponent` positionally. -/
def positional (digits : Nat) : Int → List Char
  | .ofNat e => Nat.toDigits 10 digits ++ List.replicate e '0'
  | .negSucc e =>
    let places := e + 1
    let written := Nat.toDigits 10 digits
    let padded := List.replicate (places + 1 - written.length) '0' ++ written
    padded.take (padded.length - places) ++ '.' :: padded.drop (padded.length - places)

/-- Writes a number; both zeros are written without a sign. -/
def write : Number → List Char
  | nan => "NaN".toList
  | infinite negative => (if negative then "-Infinity" else "Infinity").toList
  | finite negative index =>
    if index.val = 0 then ['0']
    else
      let (digits, exponent) := shortest index
      (if negative then ['-'] else []) ++ positional digits exponent

def toText (x : Number) : String := String.ofList x.write

end XPath.Number
