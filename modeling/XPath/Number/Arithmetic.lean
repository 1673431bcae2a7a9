import XPath.Number.Basic
/-! Arithmetic on numbers. Every operation computes the exact result in units and then takes the
nearest number; the cases without an exact result follow the sign and infinity rules of binary
floating point. -/
namespace XPath.Number
set_option autoImplicit false

/-- A signed count of units. -/
def signed (negative : Bool) (n : Nat) : Int := if negative then -(n : Int) else n

def neg : Number → Number
  | nan => nan
  | infinite negative => infinite (!negative)
  | finite negative index => finite (!negative) index

/-- A sum that is exactly zero is negative only if both terms are. -/
def add : Number → Number → Number
  | nan, _ => nan
  | _, nan => nan
  | infinite s, infinite t => if s == t then infinite s else nan
  | infinite s, finite _ _ => infinite s
  | finite _ _, infinite t => infinite t
  | finite s a, finite t b =>
    let total := signed s (units a) + signed t (units b)
    if total = 0 then ofIndex (s && t) 0 else ofUnits (total < 0) total.natAbs 1

def sub (x y : Number) : Number := add x (neg y)

def mul : Number → Number → Number
  | nan, _ => nan
  | _, nan => nan
  | infinite s, infinite t => infinite (s != t)
  | infinite s, finite t b => if b.val = 0 then nan else infinite (s != t)
  | finite s a, infinite t => if a.val = 0 then nan else infinite (s != t)
  | finite s a, finite t b => ofUnits (s != t) (units a * units b) one

/-- A non-zero number divided by zero is infinite. -/
def div : Number → Number → Number
  | nan, _ => nan
  | _, nan => nan
  | infinite _, infinite _ => nan
  | infinite s, finite t _ => infinite (s != t)
  | finite s _, infinite t => ofIndex (s != t) 0
  | finite s a, finite t b =>
    if b.val = 0 then (if a.val = 0 then nan else infinite (s != t))
    else ofUnits (s != t) (units a * one) (units b)

/-- The remainder of the division truncated towards zero, with the sign of the dividend. -/
def mod : Number → Number → Number
  | finite s a, infinite _ => finite s a
  | finite s a, finite _ b => if b.val = 0 then nan else ofUnits s (units a % units b) 1
  | _, _ => nan

/-! ## Whole numbers near a number -/

/-- The greatest whole number that is not above. -/
def floor : Number → Number
  | finite false index => ofFraction false (units index / one) 1
  | finite true index => ofFraction true ((units index + (one - 1)) / one) 1
  | x => x

/-- The least whole number that is not below. -/
def ceiling : Number → Number
  | finite false index => ofFraction false ((units index + (one - 1)) / one) 1
  | finite true index => ofFraction true (units index / one) 1
  | x => x

/-- One half. -/
def half : Number := ofFraction false 1 2

/-- Adds a half and takes the floor. Zeros keep their sign, and from minus one half up to zero
the result is the negative zero. -/
def round (x : Number) : Number :=
  match x.place with
  | none => x
  | some 0 => x
  | some _ => if le (neg half) x && lt x zero then negativeZero else floor (add x half)

end XPath.Number
