import DatanodeLedger.Text.Digits

/-! Points in time as dates of the Gregorian calendar, extended to all years, at UTC. -/
namespace DatanodeLedger.Timestamp

structure Date where
  year : Int
  month : Nat
  day : Nat
  deriving DecidableEq, Repr

/-- The date of a number of days since the first of January 1970. Years are counted from the first
of March, so that a leap day ends one, in cycles of four hundred years. -/
def dateOfDay (day : Int) : Date :=
  let shifted := day + 719468
  let era := shifted.fdiv 146097
  let dayOfEra := (shifted.fmod 146097).toNat
  let yearOfEra := (dayOfEra - dayOfEra / 1460 + dayOfEra / 36524 - dayOfEra / 146096) / 365
  let dayOfYear := dayOfEra - (365 * yearOfEra + yearOfEra / 4 - yearOfEra / 100)
  let fromMarch := (5 * dayOfYear + 2) / 153
  let month := if fromMarch < 10 then fromMarch + 3 else fromMarch - 9
  { year := era * 400 + yearOfEra + (if month ≤ 2 then 1 else 0)
    month
    day := dayOfYear - (153 * fromMarch + 2) / 5 + 1 }

/-- Years of four digits stand alone; all others carry their sign. -/
def renderYear (year : Int) : String :=
  if 0 ≤ year ∧ year ≤ 9999 then Text.padded 4 year.toNat
  else (if year < 0 then "-" else "+") ++ Text.padded 4 year.natAbs

/-- The first millisecond of the year -262143. -/
def earliest : Int := -8334601228800000

/-- The last millisecond of the year 262142. -/
def latest : Int := 8210266876799999

/-- The date and time of a number of milliseconds, which is read as a signed word. Outside the
calendar's range the unsigned number is shown. -/
def render (millis : UInt64) : String :=
  let signed : Int := millis.toInt64.toInt
  if signed < earliest ∨ latest < signed then toString millis.toNat ++ "ms"
  else
    let seconds := signed.fdiv 1000
    let date := dateOfDay (seconds.fdiv 86400)
    let time := (seconds.fmod 86400).toNat
    renderYear date.year ++ "-" ++ Text.padded 2 date.month ++ "-" ++ Text.padded 2 date.day
      ++ " " ++ Text.padded 2 (time / 3600) ++ ":" ++ Text.padded 2 (time / 60 % 60)
      ++ ":" ++ Text.padded 2 (time % 60) ++ " UTC"

end DatanodeLedger.Timestamp
