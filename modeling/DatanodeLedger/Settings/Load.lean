import DatanodeLedger.Document.Json.Parser
import DatanodeLedger.Document.Toml.Parser
import DatanodeLedger.Limits
import DatanodeLedger.Settings.Environment
import DatanodeLedger.Settings.Path

/-! The settings of the program. They come from a file, if there is one, with the environment laid
over it, and whatever neither of them sets keeps its standard value. -/
namespace DatanodeLedger

structure Settings where
  logLevel : String := "info"
  limits : Limits := {}
  deriving DecidableEq, Repr

namespace Settings

def document (settings : Settings) : Document :=
  .table [("log_level", .text settings.logLevel), ("datanode_manager", settings.limits.document)]

def reader : Json.Reader Document :=
  Json.Reader.record "Config"
    [⟨"log_level", Json.Reader.text, some (.text ({} : Settings).logLevel)⟩,
     ⟨"datanode_manager", Limits.reader, some ({} : Settings).limits.document⟩]

/-- The formats of settings files. A file of any other format is refused. -/
inductive Format where
  | toml
  | json
  deriving DecidableEq, Repr

/-- How the names of the files of a format end. -/
def Format.ending : Format → String
  | .toml => ".toml"
  | .json => ".json"

def Format.all : List Format := [.toml, .json]

/-- The format of a file, by the end of its name. A name that is nothing but an ending has none. -/
def Format.ofPath? (path : String) : Option Format :=
  let name := (path.splitOn "/").getLastD ""
  Format.all.find? fun format => name.endsWith format.ending && name != format.ending

structure File where
  format : Format
  content : String

/-- Numbers in settings are written without exponents, whole ones without a fraction. -/
def numbers : Number.Layout where
  positional _ := true
  pointZero := false

private def unfit (name expected : String) : Error :=
  .configSource ("invalid value for " ++ name ++ ", expected " ++ expected)

/-- Truth values and numbers stand for their texts. -/
private def readText (name : String) : Document → Except Error String
  | .text s => .ok s
  | .bool b => .ok (if b then "true" else "false")
  | .integer n => .ok (toString n)
  | .double x => .ok (numbers.render x)
  | _ => .error (unfit name "a string")

private def nearestWord : Number.Double → UInt64
  | .finite true _ | .infinite true | .nan => 0
  | .finite false size => UInt64.ofNat (min size.round (UInt64.size - 1))
  | .infinite false => UInt64.ofNat (UInt64.size - 1)

/-- Truth values and the words for them stand for one and zero. Numbers with a fraction are rounded
and kept in range; whole numbers have to be in range. -/
private def readWord (name : String) (d : Document) : Except Error UInt64 :=
  let refusal : Except Error UInt64 := .error (unfit name "an unsigned number")
  match d with
  | .integer n => if 0 ≤ n ∧ n < UInt64.size then .ok (UInt64.ofNat n.toNat) else refusal
  | .bool b => .ok (if b then 1 else 0)
  | .double x => .ok (nearestWord x)
  | .text s =>
    let lower := String.ofList (s.toList.map Char.toLower)
    if ["true", "on", "yes"].contains lower then .ok 1
    else if ["false", "off", "no"].contains lower then .ok 0
    else
      match Text.word? s.toList with
      | some n => .ok n
      | none => refusal
  | _ => refusal

/-- Limits are a table, or the list of their values in order. -/
private def readLimits : Document → Except Error Limits
  | .table entries =>
    Limits.ofEntries fun name standard =>
      match Document.lookup name entries with
      | some d => readWord name d
      | none => .ok standard
  | .list items =>
    let named := (({} : Limits).entries.map Prod.fst).zip items
    Limits.ofEntries fun name standard =>
      match Document.lookup name named with
      | some d => readWord name d
      | none => .ok standard
  | _ => .error (unfit "datanode_manager" "a table")

private def readSettings (root : Document) : Except Error Settings := do
  let logLevel ← match root.get? "log_level" with
    | some d => readText "log_level" d
    | none => pure ({} : Settings).logLevel
  let limits ← match root.get? "datanode_manager" with
    | some d => readLimits d
    | none => pure {}
  pure { logLevel, limits }

/-- The entries of a settings file. A byte order mark in front of the content does not count. -/
private def fileEntries (file : File) : Except Error (List (String × Document)) :=
  let content := match file.content.toList with
    | c :: rest => if c.toNat = 0xfeff then String.ofList rest else file.content
    | [] => ""
  let parsed := match file.format with
    | .toml => Toml.parse? content
    | .json => Json.parse? content
  match parsed with
  | some (.table entries) => .ok entries
  | some _ => .error (.configSource "the settings file is not a table")
  | none => .error (.configSource "the settings file cannot be read")

private def assignAll (root : Document) (entries : List (String × Document)) : Document :=
  entries.foldl (fun root entry => assign root entry.1 entry.2) root

/-- The settings of a file and an environment, which have to be valid. -/
def load (file : Option File) (environment : List (String × String)) : Except Error Settings := do
  let entries ← match file with
    | some file => fileEntries file
    | none => pure []
  let assigned := environment.filterMap fun (name, value) =>
    (Environment.key? name).map (·, Environment.value value)
  let settings ← readSettings (assignAll (assignAll (.table []) entries) assigned)
  settings.limits.validate
  pure settings

end Settings
end DatanodeLedger
