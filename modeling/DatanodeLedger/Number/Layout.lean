import DatanodeLedger.Number.Shortest

/-! How a double is laid out as text: with the fewest digits that identify it, positionally in a
range of sizes and otherwise with a signed exponent. -/
namespace DatanodeLedger.Number

/-- The choices a text format makes when it writes doubles. -/
structure Layout where
  /-- whether a number whose leading digit stands for `10 ^ e` is written without an exponent -/
  positional : Int → Bool
  /-- whether a whole number ends in a point and a zero -/
  pointZero : Bool

namespace Layout

private def zeros (n : Nat) : String := String.ofList (List.replicate n '0')

private def withPoint (digits : List Char) (lead : Int) (pointZero : Bool) : String :=
  let whole := (lead + 1).toNat
  if lead < 0 then "0." ++ zeros (-lead - 1).toNat ++ String.ofList digits
  else if digits.length ≤ whole then
    String.ofList digits ++ zeros (whole - digits.length) ++ (if pointZero then ".0" else "")
  else String.ofList (digits.take whole) ++ "." ++ String.ofList (digits.drop whole)

private def withExponent (digits : List Char) (lead : Int) : String :=
  let fraction := digits.drop 1
  String.ofList (digits.take 1)
    ++ (if fraction.isEmpty then "" else "." ++ String.ofList fraction)
    ++ (if lead < 0 then "e-" else "e+") ++ toString lead.natAbs

private def renderSize (layout : Layout) (x : Magnitude) : String :=
  if x.isZero then (if layout.pointZero then "0.0" else "0")
  else
    let decimal := x.shortest
    let digits := (toString decimal.digits).toList
    let lead := decimal.scale + digits.length - 1
    if layout.positional lead then withPoint digits lead layout.pointZero
    else withExponent digits lead

def render (layout : Layout) : Double → String
  | .finite negative size => (if negative then "-" else "") ++ layout.renderSize size
  | .infinite negative => if negative then "-inf" else "inf"
  | .nan => "NaN"

end Layout
end DatanodeLedger.Number
