import DatanodeLedger.Document.Basic
import DatanodeLedger.Document.Json.Token

/-! The values of JSON numbers. Whole numbers that fit a word are exact. All others are doubles,
made from a significand of at most sixty-four bits by one scaling with a power of ten, which may
differ from the nearest double in its last place. -/
namespace DatanodeLedger.Json
open DatanodeLedger.Number

/-- The digits that fit a word, as a number, and how many were left out behind them. -/
private def significand (ds : List Nat) : Nat × Nat :=
  ds.foldl (fun (sig, dropped) d =>
    if dropped = 0 ∧ 10 * sig + d < UInt64.size then (10 * sig + d, 0)
    else (sig, dropped + 1)) (0, 0)

/-- The significand continued by the digits of a fraction, and how many of them were taken. Digits
behind the first that does not fit are ignored. -/
private def continueWith (sig : Nat) : List Nat → Nat × Nat
  | [] => (sig, 0)
  | d :: ds =>
    if 10 * sig + d < UInt64.size then
      let (sig, taken) := continueWith (10 * sig + d) ds
      (sig, taken + 1)
    else (sig, 0)

private def power (e : Nat) : Magnitude := (Magnitude.ofRatio? (Nat.pow 10 e) 1).getD .zero

/-- A double divided by `10 ^ e`, in steps of at most three hundred and eight places. -/
private def scaleDown (x : Magnitude) (e : Nat) : Magnitude :=
  if e ≤ 308 then (x.div? (power e)).getD .zero
  else if x.isZero then x
  else scaleDown ((x.div? (power 308)).getD .zero) (e - 308)
termination_by e

/-- The double for `sig * 10 ^ e`; none if it is out of range. -/
private def scaled? (sig : Nat) (e : Int) : Option Magnitude := do
  let x ← Magnitude.ofRatio? sig 1
  if e < 0 then pure (scaleDown x e.natAbs)
  else if e ≤ 308 then x.mul? (power e.toNat)
  else if x.isZero then pure x
  else none

/-- The value of an exponent; none if it does not fit a signed word of thirty-two bits. -/
private def exponentOf? (ds : List Nat) : Option Nat :=
  ds.foldlM (fun n d => if 10 * n + d < UInt32.size / 2 then some (10 * n + d) else none) 0

private def doubleOf? (numeral : Numeral) : Option Magnitude :=
  let (whole, dropped) := significand numeral.whole
  let (sig, taken) := continueWith whole numeral.fraction
  let start : Int := dropped - (taken : Int)
  match numeral.exponent with
  | none => scaled? sig start
  | some (negative, digits) =>
    match exponentOf? digits with
    | some e => scaled? sig (if negative then start - e else start + e)
    | none => if sig ≠ 0 ∧ !negative then none else some .zero

/-- The value of a number; none if it is beyond the range of doubles. -/
def Numeral.value? (numeral : Numeral) : Option Document :=
  let whole := Text.ofDigits numeral.whole
  if numeral.integral ∧ !numeral.negative ∧ whole < UInt64.size then some (.integer whole)
  else if numeral.integral ∧ numeral.negative ∧ 0 < whole ∧ whole ≤ UInt64.size / 2 then
    some (.integer (-(whole : Int)))
  else (doubleOf? numeral).map fun size => .double (.finite numeral.negative size)

end DatanodeLedger.Json
