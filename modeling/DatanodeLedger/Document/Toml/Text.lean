import DatanodeLedger.Text.Digits

/-! The four kinds of quoted text of TOML: with or without escapes, on one line or on several. -/
namespace DatanodeLedger.Toml

/-- Whether a character can stand in a text or a comment as it is. -/
def isPlain (c : Char) : Bool := c == '\t' || (0x20 ≤ c.toNat && c.toNat ≠ 0x7f)

def isSpace (c : Char) : Bool := c == ' ' || c == '\t'

/-- The rest behind a line break, if there is one in front. -/
def newline? : List Char → Option (List Char)
  | '\n' :: rest => some rest
  | '\r' :: '\n' :: rest => some rest
  | _ => none

private def scalarOf? (digits : List Char) : Option Char := do
  let ds ← digits.mapM Text.hexDigit?
  let n := ds.foldl (fun n d => 16 * n + d) 0
  if n < 0xd800 ∨ (0xdfff < n ∧ n ≤ 0x10ffff) then some (Char.ofNat n) else none

/-- The character that an escape stands for, without its backslash, and the rest. -/
private def escape? : List Char → Option (Char × List Char)
  | 'b' :: rest => some ('\x08', rest)
  | 't' :: rest => some ('\t', rest)
  | 'n' :: rest => some ('\n', rest)
  | 'f' :: rest => some ('\x0c', rest)
  | 'r' :: rest => some ('\r', rest)
  | 'e' :: rest => some ('\x1b', rest)
  | '"' :: rest => some ('"', rest)
  | '\\' :: rest => some ('\\', rest)
  | 'x' :: rest => coded 2 rest
  | 'u' :: rest => coded 4 rest
  | 'U' :: rest => coded 8 rest
  | _ => none
where
  coded (width : Nat) (cs : List Char) : Option (Char × List Char) :=
    if cs.length < width then none else (scalarOf? (cs.take width)).map (·, cs.drop width)

private def basic? : Nat → List Char → Option (List Char × List Char)
  | 0, _ => none
  | fuel + 1, cs =>
    match cs with
    | '"' :: rest => some ([], rest)
    | '\\' :: rest => do
      let (c, rest) ← escape? rest
      let (cs, rest) ← basic? fuel rest
      pure (c :: cs, rest)
    | c :: rest =>
      if isPlain c then (basic? fuel rest).map fun (cs, rest) => (c :: cs, rest) else none
    | [] => none

private def literal? : List Char → Option (List Char × List Char)
  | '\'' :: rest => some ([], rest)
  | c :: rest =>
    if isPlain c then (literal? rest).map fun (cs, rest) => (c :: cs, rest) else none
  | [] => none

/-- The quotes of a closing sequence that belong to the text: of three to five quotes all but the
last three. -/
private def closing? (quote : Char) (cs : List Char) : Option (List Char × List Char) :=
  let run := (cs.takeWhile (· == quote)).length
  if run < 3 then none
  else
    let kept := min (run - 3) 2
    some (List.replicate kept quote, cs.drop (kept + 3))

/-- What follows a backslash at the end of a line: the blanks and line breaks behind it are
dropped. -/
private def joined? (cs : List Char) : Option (List Char) :=
  match newline? (cs.dropWhile isSpace) with
  | some rest => some (rest.dropWhile fun c => isSpace c || c == '\n' || c == '\r')
  | none => none

private def lines? (quote : Char) (escapes : Bool) :
    Nat → List Char → Option (List Char × List Char)
  | 0, _ => none
  | fuel + 1, cs =>
    match closing? quote cs, newline? cs, cs with
    | some closed, _, _ => some closed
    | none, some rest, _ =>
      (lines? quote escapes fuel rest).map fun (cs, rest) => ('\n' :: cs, rest)
    | none, none, c :: rest =>
      if escapes ∧ c = '\\' then
        match joined? rest with
        | some rest => lines? quote escapes fuel rest
        | none => do
          let (c, rest) ← escape? rest
          let (cs, rest) ← lines? quote escapes fuel rest
          pure (c :: cs, rest)
      else if isPlain c then
        (lines? quote escapes fuel rest).map fun (cs, rest) => (c :: cs, rest)
      else none
    | none, none, [] => none

/-- A text on one line, and the rest. -/
def lineText? : List Char → Option (List Char × List Char)
  | '"' :: rest => basic? (rest.length + 1) rest
  | '\'' :: rest => literal? rest
  | _ => none

/-- A text of any kind, and the rest. A line break directly behind three opening quotes is
dropped. -/
def text? : List Char → Option (List Char × List Char)
  | '"' :: '"' :: '"' :: rest => lines? '"' true (rest.length + 1) ((newline? rest).getD rest)
  | '\'' :: '\'' :: '\'' :: rest => lines? '\'' false (rest.length + 1) ((newline? rest).getD rest)
  | cs => lineText? cs

end DatanodeLedger.Toml
