import DatanodeLedger.ByteSize
import DatanodeLedger.Cache
import DatanodeLedger.Decommission
import DatanodeLedger.Storage
import DatanodeLedger.Table
import DatanodeLedger.Timestamp
import DatanodeLedger.Work.Invalidation
import DatanodeLedger.Work.Queue

/-! The coordinator's record for one datanode: its identity and volumes, the aggregates of its last
heartbeat, the work that waits for it, and its flags. -/
namespace DatanodeLedger

/-- The identity under which a node registers. The uuid stays; the address can change. -/
structure Registration where
  uuid : String
  ip : String
  host : String
  transferPort : UInt16
  infoPort : UInt16
  ipcPort : UInt16
  deriving DecidableEq, Repr, Inhabited

namespace Registration

/-- A registration whose host is named by its address, with the standard ports for everything but
transfers. -/
def ofAddress (uuid ip : String) (transferPort : UInt16) : Registration :=
  { uuid, ip, host := ip, transferPort, infoPort := 9864, ipcPort := 9867 }

/-- The address for transfers. -/
def address (r : Registration) : String := r.ip ++ ":" ++ toString r.transferPort.toNat

def document (r : Registration) : Document :=
  .table [("datanode_uuid", .text r.uuid), ("ip_addr", .text r.ip), ("host_name", .text r.host),
    ("xfer_port", .word16 r.transferPort), ("info_port", .word16 r.infoPort),
    ("ipc_port", .word16 r.ipcPort)]

def reader : Json.Reader Document :=
  Json.Reader.record "DatanodeId"
    [⟨"datanode_uuid", Json.Reader.text, none⟩, ⟨"ip_addr", Json.Reader.text, none⟩,
     ⟨"host_name", Json.Reader.text, none⟩, ⟨"xfer_port", Json.Reader.word16, none⟩,
     ⟨"info_port", Json.Reader.word16, none⟩, ⟨"ipc_port", Json.Reader.word16, none⟩]

end Registration

/-- The aggregates of the last heartbeat. -/
structure NodeStats where
  capacity : UInt64 := 0
  remaining : UInt64 := 0
  blockPoolUsed : UInt64 := 0
  dfsUsed : UInt64 := 0
  cacheCapacity : UInt64 := 0
  cacheUsed : UInt64 := 0
  transfers : UInt32 := 0
  lastUpdate : UInt64 := 0
  deriving DecidableEq, Repr, Inhabited

namespace NodeStats

def document (s : NodeStats) : Document :=
  .table [("capacity", .word64 s.capacity), ("remaining", .word64 s.remaining),
    ("block_pool_used", .word64 s.blockPoolUsed), ("dfs_used", .word64 s.dfsUsed),
    ("cache_capacity", .word64 s.cacheCapacity), ("cache_used", .word64 s.cacheUsed),
    ("xceiver_count", .word32 s.transfers), ("last_update", .word64 s.lastUpdate)]

/-- The aggregates with a report of a known volume added, each sum stopping at the greatest word. -/
def add (s : NodeStats) (r : StorageReport) : NodeStats :=
  { s with
    capacity := Word.saturatingAdd s.capacity r.capacity
    remaining := Word.saturatingAdd s.remaining r.remaining
    blockPoolUsed := Word.saturatingAdd s.blockPoolUsed r.blockPoolUsed
    dfsUsed := Word.saturatingAdd s.dfsUsed r.dfsUsed }

end NodeStats

/-- A block to copy, and the volumes to copy it to, in order. -/
structure Transfer where
  block : Block
  targets : List StorageRef
  deriving Repr

/-- A transfer has at least one target. -/
def Transfer.make (block : Block) (targets : List StorageRef) : Except Error Transfer :=
  if targets.isEmpty then .error (.noReplicationTargets block.id) else .ok { block, targets }

/-- What a node sends with every heartbeat. -/
structure Heartbeat where
  reports : List StorageReport := []
  cacheCapacity : UInt64 := 0
  cacheUsed : UInt64 := 0
  transfers : UInt32 := 0
  volumeFailures : UInt32 := 0
  deriving DecidableEq, Repr

structure Node where
  uuid : String
  registration : Registration
  location : String := "/default-rack"
  storages : Table String StorageRef := {}
  stats : NodeStats := {}
  alive : Bool := false
  keyUpdate : Bool := false
  disallowed : Bool := false
  /-- a new balancer bandwidth that waits to be sent; zero is none -/
  bandwidth : UInt64 := 0
  volumeFailures : UInt32 := 0
  decommission : Decommission := {}
  transfers : Work.Queue Transfer := {}
  recoveries : Work.Queue OpenRef := {}
  invalidations : Work.InvalidateSet := {}
  cache : CacheLists := {}
  /-- the lock whose guards are accepted; any lock until one has been used -/
  lock : Option LockRef := none
  deriving Repr

instance : Inhabited Node := ⟨{ uuid := "", registration := default }⟩

namespace Node

def ofRegistration (r : Registration) : Node := { uuid := r.uuid, registration := r }

def shown (n : Node) : String := n.registration.address

/-- The record in short, for diagnostics. -/
def detailed (n : Node) : String :=
  "DatanodeDescriptor \x7b datanode_uuid: " ++ Text.quoted n.uuid ++ ", xfer_addr: "
    ++ Text.quoted n.shown ++ ", admin_state: " ++ n.decommission.state.label ++ ", alive: "
    ++ toString n.alive ++ ", .. \x7d"

/-- The registration with a new address; the uuid is kept. -/
def readdress (n : Node) (r : Registration) : Node :=
  { n with registration := { r with uuid := n.uuid } }

def setLastUpdate (n : Node) (millis : UInt64) : Node :=
  { n with stats := { n.stats with lastUpdate := millis } }

/-- The milliseconds since the last update, zero if that is in the future. -/
def silence (n : Node) (now : UInt64) : UInt64 := Word.saturatingSub now n.stats.lastUpdate

def isStale (n : Node) (now interval : UInt64) : Bool := interval < n.silence now

/-- The bandwidth that waits to be sent, which is then sent. -/
def takeBandwidth (n : Node) : Option UInt64 × Node :=
  (if n.bandwidth = 0 then none else some n.bandwidth, { n with bandwidth := 0 })

def takeKeyUpdate (n : Node) : Bool × Node := (n.keyUpdate, { n with keyUpdate := false })

def startDecommission (n : Node) (now : UInt64) : Node :=
  { n with
    decommission := (n.decommission.setState .decommissionInProgress).setStartTime now }

/-- Forget the reported aggregates, the pending deletions and the failed volumes. When the node was
last heard of stays. -/
def forgetReports (n : Node) : Node :=
  { n with
    stats := { lastUpdate := n.stats.lastUpdate }
    invalidations := {}
    volumeFailures := 0 }

/-- Drop the pending work of all three kinds. -/
def dropWork (n : Node) : Node := { n with invalidations := {}, recoveries := {}, transfers := {} }

def addTransfer (n : Node) (t : Transfer) : Node := { n with transfers := n.transfers.offer t }

def addInvalidations (n : Node) (bs : List Block) : Except Error (Nat × Node) :=
  if bs.isEmpty then .error (.emptyInvalidation n.uuid)
  else
    let (added, invalidations) := n.invalidations.addAll bs
    .ok (added, { n with invalidations })

def pollTransfers (n : Node) (max : Nat) : Option (List Transfer) × Node :=
  let (batch, transfers) := n.transfers.poll max
  (batch, { n with transfers })

def pollRecoveries (n : Node) (max : Nat) : Option (List OpenRef) × Node :=
  let (batch, recoveries) := n.recoveries.poll max
  (batch, { n with recoveries })

def drainInvalidations (n : Node) (max : Nat) : Option (List Block) × Node :=
  let (batch, invalidations) := n.invalidations.drain max
  (batch, { n with invalidations })

private def pendingText (count : Nat) (work : String) : String :=
  if count = 0 then "" else " " ++ toString count ++ " blocks to be " ++ work ++ ";"

/-- One line for logs and administrators. -/
def summary (n : Node) : String :=
  n.shown ++ " (" ++ n.uuid ++ ") " ++ n.location ++ " " ++ n.decommission.state.shown
    ++ ": capacity " ++ ByteSize.render n.stats.capacity
    ++ ", dfs used " ++ ByteSize.render n.stats.dfsUsed
    ++ ", remaining " ++ ByteSize.render n.stats.remaining
    ++ ", last contact " ++ Timestamp.render n.stats.lastUpdate
    ++ pendingText n.transfers.size "replicated"
    ++ pendingText n.invalidations.size "invalidated"
    ++ pendingText n.recoveries.size "recovered"

end Node

/-- A node at one point in time, for monitoring. -/
structure NodeReport where
  uuid : String
  address : String
  adminState : AdminState
  alive : Bool
  stats : NodeStats
  numStorages : Nat
  numBlocks : Nat
  volumeFailures : UInt32
  toReplicate : Nat
  toRecover : Nat
  toInvalidate : Nat
  deriving DecidableEq, Repr

def NodeReport.document (r : NodeReport) : Document :=
  .table [("datanode_uuid", .text r.uuid), ("xfer_addr", .text r.address),
    ("admin_state", .text r.adminState.name), ("alive", .bool r.alive), ("stats", r.stats.document),
    ("num_storages", .natural r.numStorages), ("num_blocks", .natural r.numBlocks),
    ("volume_failures", .word32 r.volumeFailures), ("blocks_to_replicate", .natural r.toReplicate),
    ("blocks_to_recover", .natural r.toRecover), ("blocks_to_invalidate", .natural r.toInvalidate)]

end DatanodeLedger
