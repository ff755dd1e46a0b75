import DatanodeLedger.Document.Json.Numeral
import DatanodeLedger.Document.Json.Printer
import DatanodeLedger.Text.Quoted

/-! Readers of JSON text that expect a certain kind of value. A reader goes through the tokens from
left to right and refuses at the first one that does not fit; what it accepts it completes with the
defaults of fields that are left out. -/
namespace DatanodeLedger.Json

/-- Why a text is refused: it is no JSON, or a value is not the one expected. -/
inductive Refusal where
  | malformed
  | unfit (message : String)
  deriving DecidableEq, Repr

abbrev Reader (α : Type) := List Token → Except Refusal (α × List Token)

namespace Reader

private def shown (numeral : Numeral) : Option String :=
  match numeral.value? with
  | some (.integer n) => some ("integer " ++ "`" ++ toString n ++ "`")
  | some (.double x) => some ("floating point " ++ "`" ++ doubles.render x ++ "`")
  | _ => none

/-- How the value that begins with a token is called in a message. -/
private def described : Token → Option String
  | .null => some "null"
  | .bool b => some ("boolean " ++ "`" ++ (if b then "true" else "false") ++ "`")
  | .number n => shown n
  | .text pieces => (textOf? pieces).map fun cs => "string " ++ Text.quoted (String.ofList cs)
  | .openList => some "sequence"
  | .openTable => some "map"
  | _ => none

/-- The refusal of the value in front where another kind is expected. -/
private def unexpected (expected : String) (tokens : List Token) : Refusal :=
  match tokens.head?.bind described with
  | some found => .unfit ("invalid type: " ++ found ++ ", expected " ++ expected)
  | none => .malformed

/-- An unsigned number below `limit`. -/
def natural (limit : Nat) (expected : String) : Reader Document := fun tokens =>
  match tokens with
  | .number numeral :: rest =>
    match numeral.value? with
    | some (.integer n) =>
      if 0 ≤ n ∧ n < limit then .ok (.integer n, rest)
      else .error (.unfit ("invalid value: integer `" ++ toString n ++ "`, expected " ++ expected))
    | _ => .error (unexpected expected tokens)
  | _ => .error (unexpected expected tokens)

def word64 : Reader Document := natural UInt64.size "u64"

def size : Reader Document := natural UInt64.size "usize"

def word16 : Reader Document := natural UInt16.size "u16"

def flag : Reader Document := fun tokens =>
  match tokens with
  | .bool b :: rest => .ok (.bool b, rest)
  | _ => .error (unexpected "a boolean" tokens)

def text : Reader Document := fun tokens =>
  match tokens with
  | .text pieces :: rest =>
    match textOf? pieces with
    | some cs => .ok (.text (String.ofList cs), rest)
    | none => .error .malformed
  | _ => .error (unexpected "a string" tokens)

private def quotedName (name : String) : String := "`" ++ name ++ "`"

private def variant (names : List String) (pieces : List Piece) : Except Refusal String :=
  match textOf? pieces with
  | none => .error .malformed
  | some cs =>
    let name := String.ofList cs
    if names.contains name then .ok name
    else .error (.unfit ("unknown variant " ++ quotedName name ++ ", expected one of "
      ++ String.intercalate ", " (names.map quotedName)))

/-- One of several names, alone or as the only key of a table with the value null. -/
def choice (names : List String) : Reader Document := fun tokens =>
  match tokens with
  | .text pieces :: rest => (variant names pieces).map fun name => (.text name, rest)
  | .openTable :: .text pieces :: rest => do
    let name ← variant names pieces
    match rest with
    | .colon :: .null :: .closeTable :: rest => pure (.text name, rest)
    | .colon :: .null :: _ => throw .malformed
    | .colon :: rest => throw (unexpected "unit" rest)
    | _ => throw .malformed
  | .openTable :: rest => throw (unexpected "variant identifier" rest)
  | _ => throw .malformed

mutual

/-- What follows the value in front. Numbers and texts are passed over unread. -/
private def skip : Nat → List Token → Option (List Token)
  | 0, _ => none
  | fuel + 1, tokens =>
    match tokens with
    | .openList :: .closeList :: rest | .openTable :: .closeTable :: rest => some rest
    | .openList :: rest => skipItems fuel rest
    | .openTable :: rest => skipMembers fuel rest
    | .null :: rest | .bool _ :: rest | .number _ :: rest | .text _ :: rest => some rest
    | _ => none

private def skipItems : Nat → List Token → Option (List Token)
  | 0, _ => none
  | fuel + 1, tokens => do
    match ← skip fuel tokens with
    | .closeList :: rest => pure rest
    | .comma :: rest => skipItems fuel rest
    | _ => none

private def skipMembers : Nat → List Token → Option (List Token)
  | 0, _ => none
  | fuel + 1, tokens =>
    match tokens with
    | .text _ :: .colon :: rest => do
      match ← skip fuel rest with
      | .closeTable :: rest => pure rest
      | .comma :: rest => skipMembers fuel rest
      | _ => none
    | _ => none

end

/-- A field of a record, with the value it has when it is left out. -/
structure Field where
  name : String
  reader : Reader Document
  default : Option Document

/-- The values of the fields in the order of their declaration. -/
private def complete (found : List (String × Document)) :
    List Field → Except Refusal (List (String × Document))
  | [] => .ok []
  | field :: fields =>
    match Document.lookup field.name found, field.default with
    | some value, _ | none, some value =>
      (complete found fields).map ((field.name, value) :: ·)
    | none, none => .error (.unfit ("missing field " ++ quotedName field.name))

/-- The entries of a table up to its end. A key that is repeated is refused before its value is
read, and keys that name no field are passed over with their values. -/
private def entries (fields : List Field) (found : List (String × Document)) :
    Nat → Reader (List (String × Document))
  | 0, _ => .error .malformed
  | fuel + 1, tokens =>
    match tokens with
    | .text pieces :: rest => do
      let some cs := textOf? pieces | throw .malformed
      let name := String.ofList cs
      let follow (found : List (String × Document)) : Reader (List (String × Document))
        | .closeTable :: rest => pure (found, rest)
        | .comma :: rest => entries fields found fuel rest
        | _ => throw .malformed
      match fields.find? (·.name == name) with
      | none =>
        let .colon :: rest := rest | throw .malformed
        let some rest := skip (2 * rest.length + 1) rest | throw .malformed
        follow found rest
      | some field =>
        if (Document.lookup name found).isSome then
          throw (.unfit ("duplicate field " ++ quotedName name))
        let .colon :: rest := rest | throw .malformed
        let (value, rest) ← field.reader rest
        follow ((name, value) :: found) rest
    | _ => .error .malformed

/-- The items of a list as the fields of a record, in order. Fields at the end that have defaults
can be left out. -/
private def items (record : String) (count : Nat) :
    List Field → Nat → Reader (List (String × Document))
  | [], _, tokens =>
    match tokens with
    | .closeList :: rest => .ok ([], rest)
    | _ => .error .malformed
  | field :: fields, index, tokens =>
    match tokens with
    | .closeList :: _ =>
      match field.default with
      | some value =>
        (items record count fields (index + 1) tokens).map fun (values, rest) =>
          ((field.name, value) :: values, rest)
      | none =>
        .error (.unfit ("invalid length " ++ toString index ++ ", expected struct " ++ record
          ++ " with " ++ toString count ++ " elements"))
    | _ => do
      let tokens ←
        if index = 0 then pure tokens
        else match tokens with
          | .comma :: .closeList :: _ => throw .malformed
          | .comma :: rest => pure rest
          | _ => throw .malformed
      let (value, rest) ← field.reader tokens
      let (values, rest) ← items record count fields (index + 1) rest
      pure ((field.name, value) :: values, rest)

/-- A record, written as a table or as the list of its fields in the order of their declaration. -/
def record (name : String) (fields : List Field) : Reader Document := fun tokens =>
  match tokens with
  | .openTable :: .closeTable :: rest =>
    (complete [] fields).map fun values => (.table values, rest)
  | .openTable :: rest => do
    let (found, rest) ← entries fields [] (rest.length + 1) rest
    let values ← complete found fields
    pure (.table values, rest)
  | .openList :: rest =>
    (items name fields.length fields 0 rest).map fun (values, rest) => (.table values, rest)
  | _ => .error (unexpected ("struct " ++ name) tokens)

/-- The whole text as one value. -/
def run {α : Type} (reader : Reader α) (s : String) : Except Refusal α := do
  match ← reader (tokens s) with
  | (value, []) => pure value
  | _ => throw .malformed

end Reader
end DatanodeLedger.Json
