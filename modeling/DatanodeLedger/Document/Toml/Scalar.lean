import DatanodeLedger.Document.Basic
import DatanodeLedger.Text.Digits

/-! The unquoted values of TOML: truth values, numbers, dates and times. -/
namespace DatanodeLedger.Toml
open DatanodeLedger.Number

/-- Digits of a base in which an underscore may stand between two of them. -/
private def digits? (digit? : Char → Option Nat) : List Char → Option (List Nat)
  | [] => none
  | [c] => (digit? c).map ([·])
  | c :: '_' :: rest => do
    let d ← digit? c
    let ds ← digits? digit? rest
    pure (d :: ds)
  | c :: rest => do
    let d ← digit? c
    let ds ← digits? digit? rest
    pure (d :: ds)

private def below (base : Nat) (c : Char) : Option Nat :=
  (Text.hexDigit? c).filter (· < base)

private def inBase? (base : Nat) (cs : List Char) : Option Nat :=
  (digits? (below base) cs).map fun ds => ds.foldl (fun n d => base * n + d) 0

/-- The digits of a decimal number, which do not begin with a zero unless it is the only one. -/
private def whole? (cs : List Char) : Option (List Nat) :=
  (digits? Text.digit? cs).filter fun ds => ds.length = 1 || ds.head? ≠ some 0

private def splitSign : List Char → Bool × List Char
  | '-' :: rest => (true, rest)
  | '+' :: rest => (false, rest)
  | cs => (false, cs)

/-- A whole number; all of them fit a signed word of sixty-four bits. -/
private def integer? (cs : List Char) : Option Int :=
  match cs with
  | '0' :: 'x' :: rest => (inBase? 16 rest).bind small?
  | '0' :: 'o' :: rest => (inBase? 8 rest).bind small?
  | '0' :: 'b' :: rest => (inBase? 2 rest).bind small?
  | _ => do
    let (negative, cs) := splitSign cs
    let n := Text.ofDigits (← whole? cs)
    if negative then (if n ≤ UInt64.size / 2 then some (-(n : Int)) else none) else small? n
where
  small? (n : Nat) : Option Int := if n < UInt64.size / 2 then some n else none

/-- A number with a fraction or an exponent; without either it is a whole number. -/
private def float? (cs : List Char) : Option Double := do
  let (negative, cs) := splitSign cs
  if cs = "inf".toList then pure (.infinite negative)
  else if cs = "nan".toList then pure .nan
  else
    let isMark (c : Char) := c == 'e' || c == 'E'
    guard (cs.any fun c => c == '.' || isMark c)
    let size := cs.takeWhile (!isMark ·)
    let whole ← whole? (size.takeWhile (· != '.'))
    let fraction ← match size.dropWhile (· != '.') with
      | [] => pure []
      | _ :: rest => digits? Text.digit? rest
    let exponent ← match cs.dropWhile (!isMark ·) with
      | [] => pure 0
      | _ :: rest =>
        let (down, rest) := splitSign rest
        let e := Text.ofDigits (← digits? Text.digit? rest)
        pure (if down then -(e : Int) else e)
    let size ← Magnitude.ofDecimal? (Text.ofDigits (whole ++ fraction)) (exponent - fraction.length)
    pure (.finite negative size)

private def number? (cs : List Char) : Option Nat := Text.natural? cs

private def monthLength (year month : Nat) : Nat :=
  if month = 2 then
    (if year % 4 = 0 ∧ (year % 100 ≠ 0 ∨ year % 400 = 0) then 29 else 28)
  else if month = 4 ∨ month = 6 ∨ month = 9 ∨ month = 11 then 30 else 31

private def date? : List Char → Option (String × List Char)
  | a :: b :: c :: d :: '-' :: e :: f :: '-' :: g :: h :: rest => do
    let year ← number? [a, b, c, d]
    let month ← number? [e, f]
    let day ← number? [g, h]
    if 1 ≤ month ∧ month ≤ 12 ∧ 1 ≤ day ∧ day ≤ monthLength year month then
      some (String.ofList [a, b, c, d, '-', e, f, '-', g, h], rest)
    else none
  | _ => none

/-- The fraction of a second, cut to nine places and without zeros at the end. -/
private def fraction? : List Char → Option (String × List Char)
  | '.' :: rest =>
    let ds := rest.takeWhile Text.isDigit
    let shown := ((ds.take 9).reverse.dropWhile (· == '0')).reverse
    if ds.isEmpty then none
    else
      let shown := if shown.isEmpty then "" else "." ++ String.ofList shown
      some (shown, rest.dropWhile Text.isDigit)
  | cs => some ("", cs)

private def clock? (a b c d : Char) (limit : Nat) : Option Unit := do
  let hour ← number? [a, b]
  let minute ← number? [c, d]
  if hour ≤ limit ∧ minute ≤ 59 then some () else none

/-- A time of day. Seconds can be left out and are then zero. -/
private def time? : List Char → Option (String × List Char)
  | a :: b :: ':' :: c :: d :: ':' :: e :: f :: rest => do
    clock? a b c d 23
    let second ← number? [e, f]
    let (fraction, rest) ← fraction? rest
    guard (second ≤ 60)
    pure (String.ofList [a, b, ':', c, d, ':', e, f] ++ fraction, rest)
  | a :: b :: ':' :: c :: d :: rest => do
    clock? a b c d 23
    pure (String.ofList [a, b, ':', c, d] ++ ":00", rest)
  | _ => none

private def offset? : List Char → Option String
  | [] => some ""
  | ['Z'] | ['z'] => some "Z"
  | [sign, a, b, ':', c, d] => do
    clock? a b c d 24
    let zero := [a, b, c, d].all (· == '0')
    if sign = '+' ∨ sign = '-' then
      some (String.ofList [if zero then '+' else sign, a, b, ':', c, d])
    else none
  | _ => none

/-- A date, a time or both, in the form in which it is shown. -/
private def moment? (cs : List Char) : Option String :=
  match date? cs with
  | some (date, []) => some date
  | some (date, c :: rest) =>
    if c = 'T' ∨ c = 't' ∨ c = ' ' then do
      let (time, rest) ← time? rest
      let offset ← offset? rest
      pure (date ++ "T" ++ time ++ offset)
    else none
  | none =>
    match time? cs with
    | some (time, []) => some time
    | _ => none

private def classify (cs : List Char) : Option Document :=
  if cs = "true".toList then some (.bool true)
  else if cs = "false".toList then some (.bool false)
  else
    match integer? cs, float? cs, moment? cs with
    | some n, _, _ => some (.integer n)
    | none, some x, _ => some (.double x)
    | none, none, some s => some (.text s)
    | none, none, none => none

private def isDelimiter (c : Char) : Bool :=
  c == ' ' || c == '\t' || c == '\r' || c == '\n' || c == ',' || c == ']' || c == '}' || c == '#'

/-- The value in front, and the rest. A date and its time can be apart by one blank. -/
def scalar? (cs : List Char) : Option (Document × List Char) :=
  let run := cs.takeWhile (!isDelimiter ·)
  let rest := cs.dropWhile (!isDelimiter ·)
  match date? run, rest with
  | some (_, []), ' ' :: c :: more =>
    if Text.isDigit c then
      let time := (c :: more).takeWhile (!isDelimiter ·)
      (classify (run ++ ' ' :: time)).map (·, (c :: more).dropWhile (!isDelimiter ·))
    else (classify run).map (·, rest)
  | _, _ => (classify run).map (·, rest)

end DatanodeLedger.Toml
