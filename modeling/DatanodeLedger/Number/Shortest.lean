import DatanodeLedger.Number.Double

/-! The shortest decimal that reads back as a given double. The candidates with a given number of
digits are the two neighbours of the value on that decimal grid; the first grid with a neighbour
inside the rounding interval gives the digits. -/
namespace DatanodeLedger.Number

/-- The decimal `digits * 10 ^ scale`. -/
structure Decimal where
  digits : Nat
  scale : Int
  deriving DecidableEq, Repr

namespace Magnitude

/-- Twice the distances to the ends of the rounding interval, in quarters of the last place: the
gap below a power of two is half as wide. -/
private def interval (x : Magnitude) : Nat × Nat :=
  let narrow := x.significand = leastNormal ∧ x.exponent > leastExponent
  (4 * x.significand - (if narrow then 1 else 2), 4 * x.significand + 2)

/-- How `d` compares with `quarters` quarters of the last place of `x`. -/
private def compareQuarters (x : Magnitude) (d : Decimal) (quarters : Nat) : Ordering :=
  let e := x.exponent - 2
  compare (d.digits * Nat.pow 10 d.scale.toNat * Nat.pow 2 (-e).toNat)
    (quarters * Nat.pow 2 e.toNat * Nat.pow 10 (-d.scale).toNat)

/-- Whether `d` rounds to `x`. The ends of the interval count if the significand is even. -/
def readsBack (x : Magnitude) (d : Decimal) : Bool :=
  let ends := x.significand % 2 == 0
  let low := x.compareQuarters d x.interval.1
  let high := x.compareQuarters d x.interval.2
  (low == .gt || (ends && low == .eq)) && (high == .lt || (ends && high == .eq))

/-- The number of digits before the point of `n / d`; at most zero if the quotient is below one. -/
private def wholeDigits (n d : Nat) : Int :=
  if d ≤ n then ((toString (n / d)).length : Int)
  else
    let zeros := ((toString (d / n)).length : Int)
    if n * Nat.pow 10 zeros.toNat ≥ d then 1 - zeros else -zeros

/-- The better neighbour of `x` among the decimals of the given scale, if one reads back. -/
private def onGrid (x : Magnitude) (scale : Int) : Option Decimal :=
  let n := x.ratio.1 * Nat.pow 10 (-scale).toNat
  let d := x.ratio.2 * Nat.pow 10 scale.toNat
  let below : Decimal := ⟨n / d, scale⟩
  let above : Decimal := ⟨n / d + 1, scale⟩
  let nearer : Decimal := ⟨nearestEven n d, scale⟩
  if x.readsBack nearer then some nearer
  else if x.readsBack below then some below
  else if x.readsBack above then some above
  else none

private def dropZeros (d : Decimal) : Nat → Decimal
  | 0 => d
  | fuel + 1 =>
    if d.digits ≠ 0 ∧ d.digits % 10 = 0 then dropZeros ⟨d.digits / 10, d.scale + 1⟩ fuel else d

/-- The decimal with the fewest digits that reads back as `x`; seventeen always suffice. -/
def shortest (x : Magnitude) : Decimal :=
  if x.isZero then ⟨0, 0⟩
  else
    let top := wholeDigits x.ratio.1 x.ratio.2
    let found := (List.range 17).findSome? fun i => x.onGrid (top - (i + 1 : Nat))
    dropZeros (found.getD ⟨x.ratio.1, 0⟩) 20

end Magnitude
end DatanodeLedger.Number
