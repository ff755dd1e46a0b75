import DatanodeLedger.Document.Basic
import DatanodeLedger.Number.Layout
import DatanodeLedger.Text.Digits

/-! Documents as JSON text, on one line or indented. -/
namespace DatanodeLedger.Json

/-- Doubles are positional between `10 ^ -5` and `10 ^ 16`, and whole ones end in a point and a
zero. -/
def doubles : Number.Layout where
  positional lead := -5 ≤ lead && lead ≤ 15
  pointZero := true

private def escape (c : Char) : String :=
  if c = '"' then "\\\""
  else if c = '\\' then "\\\\"
  else if c = '\n' then "\\n"
  else if c = '\r' then "\\r"
  else if c = '\t' then "\\t"
  else if c = '\x08' then "\\b"
  else if c = '\x0c' then "\\f"
  else if c.toNat < 0x20 then
    "\\u00" ++ String.ofList [Text.hexDigit (c.toNat / 16), Text.hexDigit (c.toNat % 16)]
  else c.toString

def renderText (s : String) : String := "\"" ++ String.join (s.toList.map escape) ++ "\""

private def renderDouble : Number.Double → String
  | .finite negative size => doubles.render (.finite negative size)
  | _ => "null"

mutual

/-- A document on one line, without blanks. -/
def compact : Document → String
  | .null => "null"
  | .bool b => if b then "true" else "false"
  | .integer n => toString n
  | .double x => renderDouble x
  | .text s => renderText s
  | .list items => "[" ++ compactItems items ++ "]"
  | .table entries => "\x7b" ++ compactEntries entries ++ "\x7d"

private def compactItems : List Document → String
  | [] => ""
  | [item] => compact item
  | item :: rest => compact item ++ "," ++ compactItems rest

private def compactEntries : List (String × Document) → String
  | [] => ""
  | [(key, value)] => renderText key ++ ":" ++ compact value
  | (key, value) :: rest => renderText key ++ ":" ++ compact value ++ "," ++ compactEntries rest

end

private def margin (depth : Nat) : String := String.ofList (List.replicate (2 * depth) ' ')

mutual

/-- A document with every item on a line of its own, indented by two blanks for each level. -/
def indented (depth : Nat) : Document → String
  | .list (item :: rest) =>
    "[\n" ++ indentedItems (depth + 1) (item :: rest) ++ "\n" ++ margin depth ++ "]"
  | .table (entry :: rest) =>
    "\x7b\n" ++ indentedEntries (depth + 1) (entry :: rest) ++ "\n" ++ margin depth ++ "\x7d"
  | d => compact d

private def indentedItems (depth : Nat) : List Document → String
  | [] => ""
  | [item] => margin depth ++ indented depth item
  | item :: rest => margin depth ++ indented depth item ++ ",\n" ++ indentedItems depth rest

private def indentedEntries (depth : Nat) : List (String × Document) → String
  | [] => ""
  | [(key, value)] => margin depth ++ renderText key ++ ": " ++ indented depth value
  | (key, value) :: rest =>
    margin depth ++ renderText key ++ ": " ++ indented depth value ++ ",\n"
      ++ indentedEntries depth rest

end

def pretty (d : Document) : String := indented 0 d

end DatanodeLedger.Json
