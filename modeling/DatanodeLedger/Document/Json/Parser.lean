import DatanodeLedger.Document.Json.Numeral

/-! JSON text as a document. Of equal keys in a table the last counts, and lists and tables nest to
a bounded depth. -/
namespace DatanodeLedger.Json

/-- How many lists and tables can lie inside one another. -/
def nesting : Nat := 127

private def scalar? : Token → Option Document
  | .null => some .null
  | .bool b => some (.bool b)
  | .number n => n.value?
  | .text pieces => (textOf? pieces).map fun cs => .text (String.ofList cs)
  | _ => none

mutual

private def value? (depth : Nat) : Nat → List Token → Option (Document × List Token)
  | 0, _ => none
  | fuel + 1, tokens =>
    match tokens with
    | .openList :: .closeList :: rest => if depth = 0 then none else some (.list [], rest)
    | .openTable :: .closeTable :: rest => if depth = 0 then none else some (.table [], rest)
    | .openList :: rest =>
      if depth = 0 then none
      else (items? (depth - 1) fuel rest).map fun (items, rest) => (.list items, rest)
    | .openTable :: rest =>
      if depth = 0 then none
      else (members? (depth - 1) fuel rest).map fun (entries, rest) =>
        (.table (entries.foldl (fun kept entry => Document.put entry.1 entry.2 kept) []), rest)
    | token :: rest => (scalar? token).map (·, rest)
    | [] => none

private def items? (depth : Nat) : Nat → List Token → Option (List Document × List Token)
  | 0, _ => none
  | fuel + 1, tokens => do
    let (item, rest) ← value? depth fuel tokens
    match rest with
    | .closeList :: rest => pure ([item], rest)
    | .comma :: rest =>
      let (items, rest) ← items? depth fuel rest
      pure (item :: items, rest)
    | _ => none

private def members? (depth : Nat) :
    Nat → List Token → Option (List (String × Document) × List Token)
  | 0, _ => none
  | fuel + 1, tokens =>
    match tokens with
    | .text pieces :: .colon :: rest => do
      let key ← textOf? pieces
      let (item, rest) ← value? depth fuel rest
      match rest with
      | .closeTable :: rest => pure ([(String.ofList key, item)], rest)
      | .comma :: rest =>
        let (entries, rest) ← members? depth fuel rest
        pure ((String.ofList key, item) :: entries, rest)
      | _ => none
    | _ => none

end

/-- The document that a text is, if it is one and nothing else. -/
def parse? (s : String) : Option Document :=
  let tokens := tokens s
  match value? nesting (2 * tokens.length + 1) tokens with
  | some (value, []) => some value
  | _ => none

end DatanodeLedger.Json
