import DatanodeLedger.Ledger.Basic

/-! Requests to the coordinators. A request goes from ledger to ledger and writes a journal; it ends
with an answer or is cut short by a fault, and what it has changed before a fault stays changed. -/
namespace DatanodeLedger

inductive Level where
  | debug
  | info
  | warn
  | error
  deriving DecidableEq, Repr

def Level.name : Level → String
  | .debug => "DEBUG"
  | .info => "INFO"
  | .warn => "WARN"
  | .error => "ERROR"

/-- Whether a level is among those that a name stands for: the one with that name and the graver
ones. -/
def Level.isIncluded (level : Level) (name : String) : Bool :=
  match name, level with
  | "trace", _ | "debug", _ => true
  | "info", .debug => false
  | "info", _ => true
  | "warn", .warn | "warn", .error => true
  | "error", .error => true
  | _, _ => false

/-- What is worth a line in the journal. -/
inductive Event where
  | registered (address uuid : String)
  | registeredAgain (address uuid : String)
  | removed (address : String) (replicas : Nat)
  | disallowedHeartbeat (address : String)
  | missedHeartbeats (address uuid : String)
  | storageAdded (storage uuid : String)
  | blockMoved (block source target : String)
  | unrecognizedStorage (storage uuid : String)
  | recoveryQueued (block : String)
  | poisonedLock
  deriving DecidableEq, Repr

namespace Event

def level : Event → Level
  | registered .. | registeredAgain .. | removed .. | recoveryQueued _ => .info
  | storageAdded .. | blockMoved .. => .debug
  | disallowedHeartbeat _ | missedHeartbeats .. | unrecognizedStorage .. => .warn
  | poisonedLock => .error

def message : Event → String
  | registered address uuid => "Registering new datanode " ++ address ++ " (" ++ uuid ++ ")"
  | registeredAgain address uuid => "Re-registering datanode " ++ address ++ " (" ++ uuid ++ ")"
  | removed address replicas =>
    "Removed datanode " ++ address ++ " (" ++ toString replicas ++ " block replicas dropped)"
  | disallowedHeartbeat address => "Disallowed datanode " ++ address ++ " sent a heartbeat"
  | missedHeartbeats address uuid =>
    "Datanode " ++ address ++ " (" ++ uuid ++ ") missed heartbeats, marking dead"
  | storageAdded storage uuid => "Adding storage " ++ storage ++ " to datanode " ++ uuid
  | blockMoved block source target =>
    "Moving " ++ block ++ " from storage " ++ source ++ " to " ++ target
  | unrecognizedStorage storage uuid =>
    "Unrecognized storage ID " ++ storage ++ " from datanode " ++ uuid
  | recoveryQueued block => block ++ " is already in the recovery queue"
  | poisonedLock => "namespace lock poisoned by a failed operation"

def shown (e : Event) : String := e.level.name ++ " " ++ e.message

end Event

/-- The ledger together with the journal, whose last line stands in front. -/
structure Service where
  ledger : Ledger := {}
  journal : List Event := []
  deriving Repr, Inhabited

abbrev Request := ExceptT Fault (StateM Service)

namespace Request

def ledger : Request Ledger := do pure (← get).ledger

def setLedger (l : Ledger) : Request PUnit := modify fun s => { s with ledger := l }

def modifyLedger (f : Ledger → Ledger) : Request PUnit :=
  modify fun s => { s with ledger := f s.ledger }

def record (e : Event) : Request PUnit := modify fun s => { s with journal := e :: s.journal }

/-- Make a record in the ledger. -/
def make {α : Type} (f : Ledger → α × Ledger) : Request α := do
  let (a, l) := f (← ledger)
  setLedger l
  pure a

/-- A step on the ledger that changes it only if it succeeds. -/
def attempt {α : Type} (f : Ledger → Except Fault (α × Ledger)) : Request α := do
  let (a, l) ← (f (← ledger) : Except Fault (α × Ledger))
  setLedger l
  pure a

/-- A look at the ledger. -/
def look {α : Type} (f : Ledger → Except Fault α) : Request α := do
  (f (← ledger) : Except Fault α)

def node (n : NodeRef) : Request Node := do pure ((← ledger).node n)

def modifyNode (n : NodeRef) (f : Node → Node) : Request PUnit :=
  modifyLedger fun l => l.modifyNode n f

/-- Change a node and answer with what the change gives out. -/
def takeFrom {α : Type} (n : NodeRef) (f : Node → α × Node) : Request α := do
  let (a, changed) := f (← node n)
  modifyNode n fun _ => changed
  pure a

def modifyMetrics (c : CoordinatorRef) (f : Metrics → Metrics) : Request PUnit :=
  modifyLedger fun l => l.modifyCoordinator c fun k => { k with metrics := f k.metrics }

end Request
end DatanodeLedger
