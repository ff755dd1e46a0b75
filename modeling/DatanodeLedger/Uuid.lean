import DatanodeLedger.Random
import DatanodeLedger.Text.Digits

/-! Random identifiers of the usual form: thirty-two hexadecimal digits in five groups, among them
the version four and one of the variants 8, 9, a and b. -/
namespace DatanodeLedger.Uuid

private def digits (count : Nat) (w : UInt64) : String :=
  String.ofList ((List.range count).reverse.map fun i => Text.hexDigit ((w.toNat >>> (4 * i)) % 16))

/-- The identifier with the given bits, apart from those of the version and the variant. -/
def ofBits (high low : UInt64) : String :=
  digits 8 (high >>> 32) ++ "-" ++ digits 4 (high >>> 16) ++ "-4" ++ digits 3 high
    ++ "-" ++ digits 4 ((low >>> 48) &&& 0x3fff ||| 0x8000) ++ "-" ++ digits 12 low

def draw : Draw String := do
  let high ← Draw.word
  pure (ofBits high (← Draw.word))

/-- An identifier for a volume. -/
def drawStorage : Draw String := do
  pure ("DS-" ++ (← draw))

end DatanodeLedger.Uuid
