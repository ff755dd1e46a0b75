import DatanodeLedger.Document.Basic
import DatanodeLedger.Word

/-! Counters and gauges of a coordinator, and their exposition as text. Counters and rising gauges
wrap around, and falling gauges stop at zero, which is noted and shown nowhere. -/
namespace DatanodeLedger

structure Metrics where
  heartbeatsTotal : UInt64 := 0
  unknownStorageReports : UInt64 := 0
  rejectedHeartbeats : UInt64 := 0
  blocksToReplicateDispatched : UInt64 := 0
  blocksToRecoverDispatched : UInt64 := 0
  blocksToInvalidateDispatched : UInt64 := 0
  duplicateRecoverySubmissions : UInt64 := 0
  registeredDatanodes : UInt64 := 0
  liveDatanodes : UInt64 := 0
  /-- when counting began, in milliseconds -/
  started : Int := 0
  /-- how often a gauge was to be lowered that stood at zero -/
  underflows : Nat := 0
  deriving DecidableEq, Repr, Inhabited

inductive Counter where
  | heartbeatsTotal
  | unknownStorageReports
  | rejectedHeartbeats
  | blocksToReplicateDispatched
  | blocksToRecoverDispatched
  | blocksToInvalidateDispatched
  | duplicateRecoverySubmissions
  deriving DecidableEq, Repr

inductive Gauge where
  | registeredDatanodes
  | liveDatanodes
  deriving DecidableEq, Repr

namespace Counter

def all : List Counter :=
  [heartbeatsTotal, unknownStorageReports, rejectedHeartbeats, blocksToReplicateDispatched,
   blocksToRecoverDispatched, blocksToInvalidateDispatched, duplicateRecoverySubmissions]

/-- The name of a counter in documents. -/
def name : Counter → String
  | heartbeatsTotal => "heartbeats_total"
  | unknownStorageReports => "unknown_storage_reports"
  | rejectedHeartbeats => "rejected_heartbeats"
  | blocksToReplicateDispatched => "blocks_to_replicate_dispatched"
  | blocksToRecoverDispatched => "blocks_to_recover_dispatched"
  | blocksToInvalidateDispatched => "blocks_to_invalidate_dispatched"
  | duplicateRecoverySubmissions => "duplicate_recovery_submissions"

/-- The name of a counter in the exposition, and the help that goes with it. -/
def exposed : Counter → String × String
  | heartbeatsTotal => ("minidfs_heartbeats_total", "Heartbeats processed")
  | unknownStorageReports =>
    ("minidfs_unknown_storage_reports_total",
     "Storage reports naming a volume unknown to the node")
  | rejectedHeartbeats =>
    ("minidfs_rejected_heartbeats_total", "Heartbeats from unregistered or disallowed nodes")
  | blocksToReplicateDispatched =>
    ("minidfs_replication_dispatched_total", "Blocks handed to datanodes for replication")
  | blocksToRecoverDispatched =>
    ("minidfs_recovery_dispatched_total", "Blocks handed to datanodes for lease recovery")
  | blocksToInvalidateDispatched =>
    ("minidfs_invalidation_dispatched_total", "Blocks handed to datanodes for deletion")
  | duplicateRecoverySubmissions =>
    ("minidfs_duplicate_recovery_total",
     "Recovery submissions absorbed because the block was queued")

end Counter

namespace Gauge

def all : List Gauge := [registeredDatanodes, liveDatanodes]

def name : Gauge → String
  | registeredDatanodes => "registered_datanodes"
  | liveDatanodes => "live_datanodes"

def exposed : Gauge → String × String
  | registeredDatanodes => ("minidfs_registered_datanodes", "Datanodes known to the coordinator")
  | liveDatanodes => ("minidfs_live_datanodes", "Datanodes currently considered alive")

end Gauge

namespace Metrics

def counter (m : Metrics) : Counter → UInt64
  | .heartbeatsTotal => m.heartbeatsTotal
  | .unknownStorageReports => m.unknownStorageReports
  | .rejectedHeartbeats => m.rejectedHeartbeats
  | .blocksToReplicateDispatched => m.blocksToReplicateDispatched
  | .blocksToRecoverDispatched => m.blocksToRecoverDispatched
  | .blocksToInvalidateDispatched => m.blocksToInvalidateDispatched
  | .duplicateRecoverySubmissions => m.duplicateRecoverySubmissions

def gauge (m : Metrics) : Gauge → UInt64
  | .registeredDatanodes => m.registeredDatanodes
  | .liveDatanodes => m.liveDatanodes

def add (m : Metrics) (c : Counter) (n : UInt64) : Metrics :=
  match c with
  | .heartbeatsTotal => { m with heartbeatsTotal := m.heartbeatsTotal + n }
  | .unknownStorageReports => { m with unknownStorageReports := m.unknownStorageReports + n }
  | .rejectedHeartbeats => { m with rejectedHeartbeats := m.rejectedHeartbeats + n }
  | .blocksToReplicateDispatched =>
    { m with blocksToReplicateDispatched := m.blocksToReplicateDispatched + n }
  | .blocksToRecoverDispatched =>
    { m with blocksToRecoverDispatched := m.blocksToRecoverDispatched + n }
  | .blocksToInvalidateDispatched =>
    { m with blocksToInvalidateDispatched := m.blocksToInvalidateDispatched + n }
  | .duplicateRecoverySubmissions =>
    { m with duplicateRecoverySubmissions := m.duplicateRecoverySubmissions + n }

def increment (m : Metrics) (c : Counter) : Metrics := m.add c 1

def setGauge (m : Metrics) (g : Gauge) (n : UInt64) : Metrics :=
  match g with
  | .registeredDatanodes => { m with registeredDatanodes := n }
  | .liveDatanodes => { m with liveDatanodes := n }

def raise (m : Metrics) (g : Gauge) : Metrics := m.setGauge g (m.gauge g + 1)

/-- One less, down to zero. -/
def lower (m : Metrics) (g : Gauge) : Metrics :=
  { m.setGauge g (Word.saturatingSub (m.gauge g) 1) with
    underflows := if m.gauge g = 0 then m.underflows + 1 else m.underflows }

/-- The whole seconds since counting began, zero if the clock was set back behind that. -/
def uptime (m : Metrics) (now : Int) : Nat := (now - m.started).toNat / 1000

private def family (kind : String) (value : Nat) : String × String → String
  | (name, help) =>
    "# HELP " ++ name ++ " " ++ help ++ "\n# TYPE " ++ name ++ " " ++ kind ++ "\n"
      ++ name ++ " " ++ toString value ++ "\n"

/-- The text that a monitoring system scrapes: counters, gauges and the uptime. -/
def exposition (m : Metrics) (now : Int) : String :=
  String.join (Counter.all.map fun c => family "counter" (m.counter c).toNat c.exposed)
    ++ String.join (Gauge.all.map fun g => family "gauge" (m.gauge g).toNat g.exposed)
    ++ family "gauge" (m.uptime now)
        ("minidfs_uptime_seconds", "Coordinator uptime in seconds")

def document (m : Metrics) : Document :=
  .table (Counter.all.map (fun c => (c.name, .word64 (m.counter c)))
    ++ Gauge.all.map fun g => (g.name, .word64 (m.gauge g)))

end Metrics
end DatanodeLedger
