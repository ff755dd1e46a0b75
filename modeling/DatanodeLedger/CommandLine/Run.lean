import DatanodeLedger.CommandLine.Invocation
import DatanodeLedger.Document.Json.Printer
import DatanodeLedger.Duration
import DatanodeLedger.Settings.Load
import DatanodeLedger.Simulation

/-! What the program does with its arguments. Everything that a run depends on is given to it, and
everything that it does is what it prints. -/
namespace DatanodeLedger.CommandLine

structure Outcome where
  exit : UInt8 := 0
  output : String := ""
  /-- what goes to the error stream -/
  errors : String := ""
  deriving DecidableEq, Repr

/-- What a run finds around it. -/
structure Surroundings where
  environment : List (String × String) := []
  /-- the files that can be read, by their paths -/
  files : List (String × String) := []
  /-- the seed of a simulation that is given none -/
  seed : UInt64 := 0
  /-- the time in milliseconds since 1970 -/
  clock : Int := 0

/-- The files that the path of a settings file can mean, the first of them that is there counts. -/
def candidates (path : String) : List String :=
  path :: Settings.Format.all.map fun format => path ++ format.ending

/-- The files that a run needs to see. -/
def Invocation.candidates (i : Invocation) : List String :=
  ((i.value? config).map CommandLine.candidates).getD []

private def settingsFile (s : Surroundings) (path : String) : Except Error Settings.File :=
  let found := (candidates path).findSome? fun path => (s.files.lookup path).map (path, ·)
  match found with
  | none => .error (.configSource ("configuration file " ++ path ++ " not found"))
  | some (path, content) =>
    match Settings.Format.ofPath? path with
    | none => .error (.configSource ("configuration file " ++ path ++ " has no known format"))
    | some format => .ok { format, content }

private def settings (s : Surroundings) (i : Invocation) : Except Error Settings := do
  let file ← (i.value? config).mapM (settingsFile s)
  Settings.load file s.environment

private def number (i : Invocation) (f : Flag) : Option UInt64 :=
  (i.value? f).bind fun value => Text.word? value.toList

private def plan (i : Invocation) (interval : UInt64) : Simulation.Plan :=
  let count (f : Flag) : Nat := ((number i f).map UInt64.toNat).getD 0
  { nodes := count nodes, storages := count storages, rounds := count rounds, interval }

private def lines (texts : List String) : String := String.join (texts.map (· ++ "\n"))

/-- The records of the nodes, an empty line and the metrics. The journal goes to the error stream,
as far as the log level lets it. -/
private def simulation (level : String) (o : Simulation.Outcome) : Outcome :=
  let journal := o.journal.filter fun event => event.level.isIncluded level
  { output := lines o.summaries ++ "\n" ++ o.exposition
    errors := lines (journal.map Event.shown) }

/-- Carry out an invocation. -/
private def execute (s : Surroundings) (i : Invocation) : ExceptT Error (Except Fault) Outcome := do
  let settings ← settings s i
  match i.verb with
  | .showConfig => pure { output := Json.pretty settings.document ++ "\n" }
  | .simulate =>
    let interval ← ExceptT.mk (Duration.parse ((i.value? interval).getD ""))
    let seed := (number i seed).getD s.seed
    let outcome ← ExceptT.lift (Simulation.run settings.limits (plan i interval) seed s.clock)
    pure (simulation settings.logLevel outcome)

/-- The exit code tells what has gone wrong: an error, arguments out of place or a fault. -/
def Outcome.ofStop : Stop → Outcome
  | .help topic => { output := topic.page }
  | .version => { output := program ++ " " ++ version ++ "\n" }
  | .misuse detail =>
    { exit := 2, errors := "error: " ++ detail ++ "\n\nFor more information, try '--help'.\n" }

def run (s : Surroundings) (args : List String) : Outcome :=
  match Invocation.parse args with
  | .error stop => .ofStop stop
  | .ok i =>
    match (execute s i).run with
    | .ok (.ok outcome) => outcome
    | .ok (.error e) => { exit := 1, errors := "Error: " ++ e.message ++ "\n" }
    | .error fault => { exit := 101, errors := fault.message ++ "\n" }

end DatanodeLedger.CommandLine
