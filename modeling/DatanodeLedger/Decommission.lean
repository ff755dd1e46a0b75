import DatanodeLedger.Document.Json.Reader

/-! The administrative state of a node and the progress of its decommission. The progress means
something only while the node is being decommissioned: outside that phase results of scans are
dropped, and everything reads as zero. -/
namespace DatanodeLedger

inductive AdminState where
  | normal
  | decommissionInProgress
  | decommissioned
  deriving DecidableEq, Repr

namespace AdminState

def shown : AdminState → String
  | normal => "In Service"
  | decommissionInProgress => "Decommission In Progress"
  | decommissioned => "Decommissioned"

def name : AdminState → String
  | normal => "normal"
  | decommissionInProgress => "decommission_in_progress"
  | decommissioned => "decommissioned"

/-- The name of the state in full diagnostics. -/
def label : AdminState → String
  | normal => "Normal"
  | decommissionInProgress => "DecommissionInProgress"
  | decommissioned => "Decommissioned"

def all : List AdminState := [normal, decommissionInProgress, decommissioned]

def reader : Json.Reader Document := Json.Reader.choice (all.map name)

end AdminState

/-- The last results of a scan, and when the decommission started. -/
structure DecommissionProgress where
  underReplicated : UInt32 := 0
  /-- blocks whose only live replicas are on nodes being decommissioned -/
  decommissionOnly : UInt32 := 0
  underReplicatedOpen : UInt32 := 0
  startTime : UInt64 := 0
  deriving DecidableEq, Repr

structure Decommission where
  state : AdminState := .normal
  recorded : DecommissionProgress := {}
  deriving DecidableEq, Repr

namespace Decommission

def isInProgress (d : Decommission) : Bool := d.state == .decommissionInProgress

def isDone (d : Decommission) : Bool := d.state == .decommissioned

def setState (d : Decommission) (state : AdminState) : Decommission := { d with state }

/-- Record the results of a scan, if the node is being decommissioned. -/
def set (d : Decommission) (underReplicated decommissionOnly underReplicatedOpen : UInt32) :
    Decommission :=
  if d.isInProgress then
    { d with
      recorded := { d.recorded with underReplicated, decommissionOnly, underReplicatedOpen } }
  else d

def setStartTime (d : Decommission) (startTime : UInt64) : Decommission :=
  { d with recorded := { d.recorded with startTime } }

/-- What is read: the record while the node is being decommissioned, and zeros otherwise. -/
def progress (d : Decommission) : DecommissionProgress := if d.isInProgress then d.recorded else {}

end Decommission
end DatanodeLedger
