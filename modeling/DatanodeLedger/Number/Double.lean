import DatanodeLedger.Number.Rounding

/-! Double-precision numbers as exact values: a significand below `2 ^ 53` times a power of two. A
ratio is rounded to the nearest such value, a half to the even significand. -/
namespace DatanodeLedger.Number

/-- The size of a finite double, `significand * 2 ^ exponent`. -/
structure Magnitude where
  significand : Nat
  exponent : Int
  deriving DecidableEq, Repr

inductive Double where
  | finite (negative : Bool) (size : Magnitude)
  | infinite (negative : Bool)
  | nan
  deriving DecidableEq, Repr

namespace Magnitude

/-- The least exponent of a double. -/
def leastExponent : Int := -1074

/-- The greatest exponent of a finite double. -/
def greatestExponent : Int := 971

/-- The least significand of fifty-three bits. Above the least exponent all have so many. -/
def leastNormal : Nat := 4503599627370496

def zero : Magnitude := ⟨0, leastExponent⟩

def isZero (x : Magnitude) : Bool := x.significand == 0

/-- The value as a fraction. -/
def ratio (x : Magnitude) : Nat × Nat :=
  (x.significand * Nat.pow 2 x.exponent.toNat, Nat.pow 2 (-x.exponent).toNat)

/-- The exponent at which `n / d` has a significand of fifty-three bits, or the least exponent if
that is higher. -/
private def exponentFor (n d : Nat) : Int :=
  let guess : Int := (n.log2 : Int) - d.log2 - 52
  let short := n * Nat.pow 2 (-guess).toNat < leastNormal * (d * Nat.pow 2 guess.toNat)
  max leastExponent (if short then guess - 1 else guess)

/-- The double nearest to `n / d`; none if that is beyond the greatest finite double. -/
def ofRatio? (n d : Nat) : Option Magnitude :=
  if n = 0 then some zero
  else
    let e := exponentFor n d
    let m := nearestEven (n * Nat.pow 2 (-e).toNat) (d * Nat.pow 2 e.toNat)
    let x : Magnitude := if m = 2 * leastNormal then ⟨leastNormal, e + 1⟩ else ⟨m, e⟩
    if x.exponent > greatestExponent then none else some x

/-- The double nearest to `n * 10 ^ scale`. Scales that lie far outside the range of doubles are
decided by the number of digits alone. -/
def ofDecimal? (n : Nat) (scale : Int) : Option Magnitude :=
  let top : Int := (toString n).length + scale
  if n = 0 ∨ top < -330 then some zero
  else if top > 330 then none
  else ofRatio? (n * Nat.pow 10 scale.toNat) (Nat.pow 10 (-scale).toNat)

def mul? (x y : Magnitude) : Option Magnitude :=
  ofRatio? (x.ratio.1 * y.ratio.1) (x.ratio.2 * y.ratio.2)

/-- The quotient of a double and a double that is not zero. -/
def div? (x y : Magnitude) : Option Magnitude :=
  ofRatio? (x.ratio.1 * y.ratio.2) (x.ratio.2 * y.ratio.1)

/-- The nearest whole number, a half going up. -/
def round (x : Magnitude) : Nat := nearestUp x.ratio.1 x.ratio.2

end Magnitude

/-- The double with the given sign and size, infinite if there is no size. -/
def Double.ofMagnitude (negative : Bool) : Option Magnitude → Double
  | some size => .finite negative size
  | none => .infinite negative

end DatanodeLedger.Number
