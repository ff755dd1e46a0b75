import DatanodeLedger.Text.Digits
import DatanodeLedger.Number.Double

/-! Numbers of bytes for readers: two decimals and the largest binary unit that leaves at least one.
-/
namespace DatanodeLedger.ByteSize

def units : List String := ["B", "KB", "MB", "GB", "TB", "PB"]

/-- The unit that fits `n / d` bytes, with the bytes divided by the size of the unit. The last unit
takes whatever is left. -/
private def scale (n d : Nat) : List String → Nat × Nat × String
  | [] => (n, d, "")
  | [unit] => (n, d, unit)
  | unit :: larger => if n < 1024 * d then (n, d, unit) else scale n (1024 * d) larger

/-- The size in its unit. Sizes are doubles: beyond `2 ^ 53` bytes the nearest one is shown, and a
size just below a unit is not carried over into the next when the decimals are rounded. -/
def render (bytes : UInt64) : String :=
  let size := (Number.Magnitude.ofRatio? bytes.toNat 1).getD .zero
  let (n, d, unit) := scale size.ratio.1 size.ratio.2 units
  let hundredths := Number.nearestEven (100 * n) d
  toString (hundredths / 100) ++ "." ++ Text.padded 2 (hundredths % 100) ++ " " ++ unit

end DatanodeLedger.ByteSize
