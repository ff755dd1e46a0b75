import DatanodeLedger.Text.Blank
import DatanodeLedger.Text.Digits
import DatanodeLedger.Word

/-! Durations as people write them: a whole number and a unit, with blanks around them. -/
namespace DatanodeLedger.Duration

inductive Unit where
  | millisecond
  | second
  | minute
  | hour
  | day
  deriving DecidableEq, Repr

/-- The units in the order in which a text is tried against their suffixes. Milliseconds come
first, as their suffix ends in that of seconds. -/
def units : List Unit := [.millisecond, .second, .minute, .hour, .day]

def Unit.suffix : Unit → List Char
  | .millisecond => ['m', 's']
  | .second => ['s']
  | .minute => ['m']
  | .hour => ['h']
  | .day => ['d']

def Unit.millis : Unit → UInt64
  | .millisecond => 1
  | .second => 1000
  | .minute => 60000
  | .hour => 3600000
  | .day => 86400000

/-- The number in front of a unit, and the unit, as the first suffix that fits divides them. -/
def split (cs : List Char) : Option (List Char × Unit) :=
  units.findSome? fun unit =>
    if unit.suffix.isSuffixOf cs then some (cs.take (cs.length - unit.suffix.length), unit)
    else none

/-- A duration in milliseconds. The number has to fit a word; that its product with the unit does
is asserted. -/
def parse (text : String) : Except Fault (Except Error UInt64) :=
  let trimmed := Text.trim text.toList
  if trimmed.isEmpty then .ok (.error (.invalidConfig "empty duration"))
  else
    match split trimmed with
    | none => .ok (.error (.invalidConfig ("unknown duration unit: " ++ String.ofList trimmed)))
    | some (numeral, unit) =>
      match Text.word? numeral with
      | none => .ok (.error (.invalidConfig ("invalid duration: " ++ String.ofList trimmed)))
      | some n => (Word.mul64 n unit.millis).map .ok

end DatanodeLedger.Duration
