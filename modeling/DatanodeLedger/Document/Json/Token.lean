import DatanodeLedger.Text.Digits

/-! The tokens of JSON text. A text that goes wrong still has tokens up to the fault, so that a
reader can tell which of two faults comes first. -/
namespace DatanodeLedger.Json

/-- What stands between the quotes of a text: characters, and escaped units of sixteen bits. -/
inductive Piece where
  | char (c : Char)
  | unit (value : Nat)
  deriving DecidableEq, Repr

/-- A number as it is written, digit by digit. -/
structure Numeral where
  negative : Bool
  whole : List Nat
  fraction : List Nat
  /-- the sign and the digits behind the letter `e` -/
  exponent : Option (Bool × List Nat)
  /-- whether there is neither a fraction nor an exponent -/
  integral : Bool
  deriving DecidableEq, Repr

inductive Token where
  | openList
  | closeList
  | openTable
  | closeTable
  | comma
  | colon
  | null
  | bool (value : Bool)
  | number (numeral : Numeral)
  | text (pieces : List Piece)
  /-- the text is no JSON from here on -/
  | malformed
  deriving DecidableEq, Repr

private def escaped? : Char → Option Char
  | '"' => some '"'
  | '\\' => some '\\'
  | '/' => some '/'
  | 'b' => some '\x08'
  | 'f' => some '\x0c'
  | 'n' => some '\n'
  | 'r' => some '\r'
  | 't' => some '\t'
  | _ => none

private def unit? (a b c d : Char) : Option Nat := do
  let ds ← [a, b, c, d].mapM Text.hexDigit?
  pure (ds.foldl (fun n d => 16 * n + d) 0)

/-- The pieces up to the closing quote, and the rest. -/
private def scanText : List Char → Option (List Piece × List Char)
  | '"' :: rest => some ([], rest)
  | '\\' :: 'u' :: a :: b :: c :: d :: rest => do
    let value ← unit? a b c d
    let (pieces, rest) ← scanText rest
    pure (.unit value :: pieces, rest)
  | '\\' :: c :: rest => do
    let c ← escaped? c
    let (pieces, rest) ← scanText rest
    pure (.char c :: pieces, rest)
  | c :: rest =>
    if c.toNat < 0x20 then none
    else do
      let (pieces, rest) ← scanText rest
      pure (.char c :: pieces, rest)
  | [] => none

/-- The longest run of digits in front, and the rest. -/
def takeDigits (cs : List Char) : List Nat × List Char :=
  (cs.takeWhile Text.isDigit |>.filterMap Text.digit?, cs.dropWhile Text.isDigit)

/-- A fraction, if a point is in front. -/
private def scanFraction : List Char → Option (Option (List Nat) × List Char)
  | '.' :: cs =>
    let (digits, rest) := takeDigits cs
    if digits.isEmpty then none else some (some digits, rest)
  | cs => some (none, cs)

private def scanExponent (cs : List Char) : Option (Option (Bool × List Nat) × List Char) :=
  let digits (negative : Bool) (cs : List Char) :=
    let (digits, rest) := takeDigits cs
    if digits.isEmpty then none else some (some (negative, digits), rest)
  match cs with
  | 'e' :: '-' :: cs | 'E' :: '-' :: cs => digits true cs
  | 'e' :: '+' :: cs | 'E' :: '+' :: cs => digits false cs
  | 'e' :: cs | 'E' :: cs => digits false cs
  | cs => some (none, cs)

/-- A number without its sign. A leading zero stands alone. -/
private def scanNumeral (negative : Bool) (cs : List Char) : Option (Numeral × List Char) := do
  let (whole, rest) := takeDigits cs
  if whole.isEmpty ∨ (whole.head? = some 0 ∧ whole.length > 1) then none
  else
    let (fraction, rest) ← scanFraction rest
    let (exponent, rest) ← scanExponent rest
    pure ({ negative, whole, fraction := fraction.getD [], exponent,
            integral := fraction.isNone && exponent.isNone }, rest)

/-- The token in front of a text that does not begin with a blank. -/
private def scanToken : List Char → Option (Token × List Char)
  | '[' :: rest => some (.openList, rest)
  | ']' :: rest => some (.closeList, rest)
  | '{' :: rest => some (.openTable, rest)
  | '}' :: rest => some (.closeTable, rest)
  | ',' :: rest => some (.comma, rest)
  | ':' :: rest => some (.colon, rest)
  | 'n' :: 'u' :: 'l' :: 'l' :: rest => some (.null, rest)
  | 't' :: 'r' :: 'u' :: 'e' :: rest => some (.bool true, rest)
  | 'f' :: 'a' :: 'l' :: 's' :: 'e' :: rest => some (.bool false, rest)
  | '"' :: rest => (scanText rest).map fun (pieces, rest) => (.text pieces, rest)
  | '-' :: rest => (scanNumeral true rest).map fun (n, rest) => (.number n, rest)
  | cs => (scanNumeral false cs).map fun (n, rest) => (.number n, rest)

def isBlank (c : Char) : Bool := c == ' ' || c == '\n' || c == '\t' || c == '\r'

/-- Every token takes a character at least, so the length of the text is fuel enough. -/
private def scanAll : Nat → List Char → List Token
  | 0, _ => []
  | fuel + 1, cs =>
    match cs.dropWhile isBlank with
    | [] => []
    | cs =>
      match scanToken cs with
      | some (token, rest) => token :: scanAll fuel rest
      | none => [.malformed]

/-- The tokens of a text, the last of them `malformed` if the text is no sequence of tokens. -/
def tokens (s : String) : List Token := scanAll (s.toList.length + 1) s.toList

/-- The text of a sequence of pieces. Units that are surrogates count only as a pair, the high one
directly before the low one. -/
def textOf? : List Piece → Option (List Char)
  | [] => some []
  | .char c :: rest => (textOf? rest).map (c :: ·)
  | .unit high :: .unit low :: rest =>
    if 0xd800 ≤ high ∧ high ≤ 0xdbff then
      if 0xdc00 ≤ low ∧ low ≤ 0xdfff then
        let c := Char.ofNat ((high - 0xd800) * 0x400 + (low - 0xdc00) + 0x10000)
        (textOf? rest).map (c :: ·)
      else none
    else if 0xdc00 ≤ high ∧ high ≤ 0xdfff then none
    else (textOf? (.unit low :: rest)).map (Char.ofNat high :: ·)
  | .unit value :: rest =>
    if 0xd800 ≤ value ∧ value ≤ 0xdfff then none
    else (textOf? rest).map (Char.ofNat value :: ·)

end DatanodeLedger.Json
