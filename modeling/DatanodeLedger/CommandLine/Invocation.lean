import DatanodeLedger.CommandLine.Help

/-! What the arguments of the program ask for. They are read from left to right, and the first thing
that ends the reading decides: a call for help or for the version, or an argument out of place. -/
namespace DatanodeLedger.CommandLine

/-- Why nothing is to be run. -/
inductive Stop where
  | help (topic : Topic)
  | version
  | misuse (detail : String)
  deriving DecidableEq, Repr

/-- The values of flags, by their names. -/
abbrev Values := List (String × String)

structure Invocation where
  verb : Verb
  values : Values
  deriving Repr

/-- The value given to a flag, or its standard value. -/
def Invocation.value? (i : Invocation) (f : Flag) : Option String :=
  i.values.lookup f.name <|> f.standard

/-- The place where arguments are read: in front of the command or behind it. -/
structure Place where
  flags : List Flag
  topic : Topic
  /-- whether a command can follow -/
  leads : Bool

def Place.front : Place := { flags := [config], topic := .program, leads := true }

def Place.behind (v : Verb) : Place := { flags := v.flags, topic := .verb v, leads := false }

/-- A flag that has been met. It is entered with the next one or at the end. -/
structure Pending where
  flag : Flag
  value : Option String := none

private def quoted (s : String) : String := "'" ++ s ++ "'"

private def shown (f : Flag) : String := quoted ("--" ++ f.name)

/-- Enter a flag, which needs a value that it admits and can be given once. -/
private def enter (values : Values) : Option Pending → Except Stop Values
  | none => .ok values
  | some ⟨f, none⟩ => .error (.misuse ("a value is required for " ++ shown f))
  | some ⟨f, some value⟩ =>
    if (values.lookup f.name).isSome then
      .error (.misuse (shown f ++ " cannot be used multiple times"))
    else if f.expected.admits value then .ok ((f.name, value) :: values)
    else .error (.misuse ("invalid value " ++ quoted value ++ " for " ++ shown f))

private def unexpected (arg : String) : Stop :=
  .misuse ("unexpected argument " ++ quoted arg ++ " found")

private def unrecognized (name : String) : Stop :=
  .misuse ("unrecognized subcommand " ++ quoted name)

/-- The help that the arguments of the help command name. -/
private def helpTopic : List String → Stop
  | [] => .help .program
  | ["help"] => .help .help
  | name :: rest =>
    match Verb.ofName? name, rest with
    | some v, [] => .help (.verb v)
    | some _, arg :: _ => unrecognized arg
    | none, _ => unrecognized name

/-- What a flag without a value asks for. -/
private def request? (place : Place) : String → Option Stop
  | "--help" | "-h" => some (.help place.topic)
  | "--version" | "-V" => if place.leads then some .version else none
  | _ => none

/-- An argument that begins with a single dash is a row of letters, of which the first counts. -/
private def letter (arg : String) : String := String.ofList (arg.toList.take 2)

/-- What the arguments of one place hold. -/
structure Reading where
  values : Values := []
  pending : Option Pending := none
  /-- the command that follows, and its arguments -/
  next : Option (Verb × List String) := none

private def isDashed (arg : String) : Bool := "-".isPrefixOf arg && arg ≠ "-"

/-- Read the flags of a place up to the command that follows. -/
private def read (place : Place) (values : Values) (pending : Option Pending) :
    List String → Except Stop Reading
  | [] => .ok { values, pending }
  | "--" :: [] => .ok { values, pending }
  | "--" :: arg :: _ => .error (unexpected arg)
  | arg :: rest =>
    if "--".isPrefixOf arg then do
      let body := arg.toList.drop 2
      let name := String.ofList (body.takeWhile (· ≠ '='))
      let attached := body.dropWhile (· ≠ '=')
      match request? place ("--" ++ name), place.flags.find? fun f => f.name == name with
      | some stop, _ =>
        if attached.isEmpty then
          let _ ← enter values pending
          throw stop
        else throw (unexpected arg)
      | none, some f =>
        let values ← enter values pending
        match attached with
        | _ :: value =>
          let values ← enter values (some ⟨f, some (String.ofList value)⟩)
          read place values none rest
        | [] => read place values (some ⟨f, none⟩) rest
      | none, none => throw (unexpected arg)
    else if isDashed arg then
      match request? place (letter arg) with
      | some stop => do
        let _ ← enter values pending
        throw stop
      | none => .error (unexpected arg)
    else
      match pending with
      | some ⟨f, none⟩ => read place values (some ⟨f, some arg⟩) rest
      | _ =>
        if !place.leads then .error (unexpected arg)
        else if arg = "help" then .error (helpTopic rest)
        else
          match Verb.ofName? arg with
          | some verb => .ok { values, pending, next := some (verb, rest) }
          | none => .error (unrecognized arg)

/-- Read all arguments. A flag that is given in both places has the value given behind the
command. -/
def Invocation.parse (args : List String) : Except Stop Invocation := do
  let front ← read .front [] none args
  match front.next with
  | none =>
    let _ ← enter front.values front.pending
    throw (.misuse (program ++ " requires a subcommand but one was not provided"))
  | some (verb, rest) =>
    let behind ← read (.behind verb) [] none rest
    let given ← enter behind.values behind.pending
    let values ← enter front.values front.pending
    pure { verb, values := given ++ values }

end DatanodeLedger.CommandLine
