/-! Decimal digits. A numeral is read as the value of its digits, and a word is a numeral that fits
sixty-four bits and may carry a plus sign. -/
namespace DatanodeLedger.Text

/-- The value of an ASCII digit. -/
def digit? (c : Char) : Option Nat :=
  if '0' ≤ c ∧ c ≤ '9' then some (c.toNat - '0'.toNat) else none

def isDigit (c : Char) : Bool := (digit? c).isSome

/-- The value of a sequence of digits, the most significant first. -/
def ofDigits (ds : List Nat) : Nat := ds.foldl (fun n d => 10 * n + d) 0

/-- The value of a text that consists of at least one digit and nothing else. -/
def natural? (cs : List Char) : Option Nat :=
  if cs.isEmpty then none else (cs.mapM digit?).map ofDigits

/-- A numeral with an optional plus sign whose value is below `2 ^ 64`. -/
def word? (cs : List Char) : Option UInt64 :=
  let numeral := match cs with
    | '+' :: rest => rest
    | _ => cs
  match natural? numeral with
  | some n => if n < UInt64.size then some (UInt64.ofNat n) else none
  | none => none

/-- A numeral with an optional sign whose value fits a signed word of sixty-four bits. -/
def signedWord? (cs : List Char) : Option Int :=
  let fit (negative : Bool) (numeral : List Char) : Option Int :=
    match natural? numeral with
    | some n =>
      if negative then
        if n ≤ UInt64.size / 2 then some (-(n : Int)) else none
      else
        if n < UInt64.size / 2 then some n else none
    | none => none
  match cs with
  | '+' :: rest => fit false rest
  | '-' :: rest => fit true rest
  | _ => fit false cs

/-- A number written with at least `width` digits. -/
def padded (width n : Nat) : String :=
  let written := toString n
  String.ofList (List.replicate (width - written.length) '0') ++ written

/-- The value of a hexadecimal digit of either case. -/
def hexDigit? (c : Char) : Option Nat :=
  if '0' ≤ c ∧ c ≤ '9' then some (c.toNat - '0'.toNat)
  else if 'a' ≤ c ∧ c ≤ 'f' then some (c.toNat - 'a'.toNat + 10)
  else if 'A' ≤ c ∧ c ≤ 'F' then some (c.toNat - 'A'.toNat + 10)
  else none

def hexDigit (n : Nat) : Char :=
  if n < 10 then Char.ofNat ('0'.toNat + n) else Char.ofNat ('a'.toNat + (n - 10))

/-- The hexadecimal digits of a number in lower case, without leading zeros. -/
def hex (n : Nat) : String := String.ofList (Nat.toDigits 16 n)

end DatanodeLedger.Text
