import DatanodeLedger.Document.Basic
import DatanodeLedger.Number.Double
import DatanodeLedger.Text.Digits

/-! Settings from environment variables. A variable counts if its name begins with the program's
mark; two underscores in the rest of the name lead into a table. -/
namespace DatanodeLedger.Settings.Environment
open DatanodeLedger.Number

/-- What the names of the variables begin with, in lower case. -/
def mark : List Char := "minidfs_".toList

/-- The lower case of a letter, as far as it is an ASCII letter; the Kelvin sign is a `k`. -/
private def lower (c : Char) : Char := if c.toNat = 0x212a then 'k' else c.toLower

private def dotted : List Char → List Char
  | '_' :: '_' :: rest => '.' :: dotted rest
  | c :: rest => c :: dotted rest
  | [] => []

/-- The key that a variable sets, if it sets one. -/
def key? (name : String) : Option String :=
  let name := name.toList.map lower
  if mark.isPrefixOf name then some (String.ofList (dotted (name.drop mark.length))) else none

/-- A decimal number with a fraction and an exponent, either of which can be missing. -/
private def decimal? (negative : Bool) (cs : List Char) : Option Double := do
  let isMark (c : Char) := c == 'e' || c == 'E'
  let size := cs.takeWhile (!isMark ·)
  let whole := size.takeWhile (· != '.')
  let fraction := (size.dropWhile (· != '.')).drop 1
  let exponent ← match cs.dropWhile (!isMark ·) with
    | [] => pure (0 : Int)
    | _ :: '-' :: rest => (Text.natural? rest).map fun e => -(e : Int)
    | _ :: '+' :: rest => (Text.natural? rest).map fun e => (e : Int)
    | _ :: rest => (Text.natural? rest).map fun e => (e : Int)
  let n ← Text.natural? (whole ++ fraction)
  pure (.ofMagnitude negative (Magnitude.ofDecimal? n (exponent - fraction.length)))

private def double? (cs : List Char) : Option Double :=
  let (negative, cs) := match cs with
    | '-' :: rest => (true, rest)
    | '+' :: rest => (false, rest)
    | _ => (false, cs)
  let name := String.ofList (cs.map Char.toLower)
  if name = "inf" ∨ name = "infinity" then some (.infinite negative)
  else if name = "nan" then some .nan
  else decimal? negative cs

/-- The value of a variable: a truth value, a whole number, a number or, failing that, the text as
it is. -/
def value (s : String) : Document :=
  let cs := s.toList
  let name := String.ofList (cs.map Char.toLower)
  if name = "true" then .bool true
  else if name = "false" then .bool false
  else
    match Text.signedWord? cs, double? cs with
    | some n, _ => .integer n
    | none, some x => .double x
    | none, none => .text s

end DatanodeLedger.Settings.Environment
