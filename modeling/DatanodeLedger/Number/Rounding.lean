/-! Quotients of natural numbers rounded to the nearest whole number, with the two ways a half can
go. -/
namespace DatanodeLedger.Number

/-- The quotient rounded to nearest; a half goes to the even neighbour. -/
def nearestEven (n d : Nat) : Nat :=
  let q := n / d
  let r := n % d
  if 2 * r < d then q
  else if d < 2 * r then q + 1
  else if q % 2 = 0 then q else q + 1

/-- The quotient rounded to nearest; a half goes up. -/
def nearestUp (n d : Nat) : Nat := (2 * n + d) / (2 * d)

end DatanodeLedger.Number
