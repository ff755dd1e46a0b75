import DatanodeLedger.Document.Toml.Scalar
import DatanodeLedger.Document.Toml.Text
import DatanodeLedger.Document.Toml.Tree

/-! TOML text as a document. Lists and tables inside a line may go over several lines and end in a
comma. -/
namespace DatanodeLedger.Toml

private def isBare (c : Char) : Bool := c.isAlphanum || c == '_' || c == '-'

private def simpleKey? (cs : List Char) : Option (String × List Char) :=
  match lineText? cs with
  | some (key, rest) => some (String.ofList key, rest)
  | none =>
    let key := cs.takeWhile isBare
    if key.isEmpty then none else some (String.ofList key, cs.dropWhile isBare)

/-- The parts of a key with dots, and the rest. -/
private def key? : Nat → List Char → Option (List String × List Char)
  | 0, _ => none
  | fuel + 1, cs => do
    let (part, rest) ← simpleKey? (cs.dropWhile isSpace)
    match rest.dropWhile isSpace with
    | '.' :: rest =>
      let (parts, rest) ← key? fuel rest
      pure (part :: parts, rest)
    | rest => pure ([part], rest)

/-- The rest behind a comment. -/
private def comment? : List Char → Option (List Char)
  | '#' :: rest =>
    let rest := rest.dropWhile isPlain
    if rest.isEmpty ∨ (newline? rest).isSome then some rest else none
  | cs => some cs

/-- The rest behind blanks, comments and line breaks. -/
private def gap? : Nat → List Char → Option (List Char)
  | 0, _ => none
  | fuel + 1, cs => do
    let rest ← comment? (cs.dropWhile isSpace)
    match newline? rest with
    | some rest => gap? fuel rest
    | none => pure rest

private def splitLast : List String → Option (List String × String)
  | [] => none
  | [key] => some ([], key)
  | key :: rest => (splitLast rest).map fun (path, last) => (key :: path, last)

mutual

private def value? : Nat → List Char → Option (Document × List Char)
  | 0, _ => none
  | fuel + 1, cs =>
    match cs with
    | '[' :: rest => (items? fuel rest).map fun (items, rest) => (.list items, rest)
    | '{' :: rest =>
      (members? fuel [] rest).map fun (entries, rest) => (.table (Tree.documents entries), rest)
    | '"' :: _ | '\'' :: _ => (text? cs).map fun (s, rest) => (.text (String.ofList s), rest)
    | _ => scalar? cs

private def items? : Nat → List Char → Option (List Document × List Char)
  | 0, _ => none
  | fuel + 1, cs => do
    match ← gap? (cs.length + 1) cs with
    | ']' :: rest => pure ([], rest)
    | cs =>
      let (item, rest) ← value? fuel cs
      match ← gap? (rest.length + 1) rest with
      | ']' :: rest => pure ([item], rest)
      | ',' :: rest =>
        let (items, rest) ← items? fuel rest
        pure (item :: items, rest)
      | _ => none

private def members? : Nat → Tree.Entries → List Char → Option (Tree.Entries × List Char)
  | 0, _, _ => none
  | fuel + 1, entries, cs => do
    match ← gap? (cs.length + 1) cs with
    | '}' :: rest => pure (entries, rest)
    | cs =>
      let (parts, rest) ← key? (cs.length + 1) cs
      let (path, key) ← splitLast parts
      let '=' :: rest := rest | none
      let (item, rest) ← value? fuel (rest.dropWhile isSpace)
      let entries ← Tree.insert path key item entries
      match ← gap? (rest.length + 1) rest with
      | '}' :: rest => pure (entries, rest)
      | ',' :: rest => members? fuel entries rest
      | _ => none

end

/-- The tables so far, and the path of the header that is open. -/
private structure State where
  root : Tree.Entries
  header : List String

/-- The parts of a header in front of its closing bracket. -/
private def header? (cs : List Char) : Option (List String × String × List String × List Char) := do
  let (parts, rest) ← key? (cs.length + 1) cs
  let (path, key) ← splitLast parts
  pure (path, key, parts, rest)

private def statement? (s : State) (cs : List Char) : Option (State × List Char) :=
  match cs with
  | '[' :: '[' :: rest => do
    let (path, key, parts, rest) ← header? rest
    let ']' :: ']' :: rest := rest | none
    pure (⟨← Tree.openNext path key s.root, parts⟩, rest)
  | '[' :: rest => do
    let (path, key, parts, rest) ← header? rest
    let ']' :: rest := rest | none
    pure (⟨← Tree.openTable path key s.root, parts⟩, rest)
  | _ => do
    let (parts, rest) ← key? (cs.length + 1) cs
    let (path, key) ← splitLast parts
    let '=' :: rest := rest | none
    let (item, rest) ← value? (2 * cs.length + 1) (rest.dropWhile isSpace)
    let root ← Tree.descend .implied (Tree.insert path key item) s.header s.root
    pure ({ s with root }, rest)

private def statements? : Nat → State → List Char → Option State
  | 0, _, _ => none
  | fuel + 1, s, cs => do
    match ← gap? (cs.length + 1) cs with
    | [] => pure s
    | cs =>
      let (s, rest) ← statement? s cs
      let rest ← comment? (rest.dropWhile isSpace)
      match newline? rest with
      | some rest => statements? fuel s rest
      | none => if rest.isEmpty then pure s else none

/-- The table that a text is, if it is one. A byte order mark in front does not count. -/
def parse? (s : String) : Option Document :=
  let cs := match s.toList with
    | c :: rest => if c.toNat = 0xfeff then rest else c :: rest
    | [] => []
  (statements? (cs.length + 1) ⟨[], []⟩ cs).map fun s => .table (Tree.documents s.root)

end DatanodeLedger.Toml
