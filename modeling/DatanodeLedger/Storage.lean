import DatanodeLedger.Block
import DatanodeLedger.Slab
import DatanodeLedger.Word

/-! Storage volumes: what nodes announce and report about them, and the coordinator's record with
the list of the blocks that a volume holds. -/
namespace DatanodeLedger

inductive StorageState where
  | normal
  | readOnly
  | failed
  deriving DecidableEq, Repr, Inhabited

namespace StorageState

def shown : StorageState → String
  | normal => "Normal"
  | readOnly => "ReadOnly"
  | failed => "Failed"

def name : StorageState → String
  | normal => "normal"
  | readOnly => "read_only"
  | failed => "failed"

def all : List StorageState := [normal, readOnly, failed]

def reader : Json.Reader Document := Json.Reader.choice (all.map name)

end StorageState

inductive Medium where
  | disk
  | ssd
  | archive
  | ramDisk
  deriving DecidableEq, Repr, Inhabited

namespace Medium

def shown : Medium → String
  | disk => "Disk"
  | ssd => "Ssd"
  | archive => "Archive"
  | ramDisk => "RamDisk"

def name : Medium → String
  | disk => "disk"
  | ssd => "ssd"
  | archive => "archive"
  | ramDisk => "ram_disk"

def all : List Medium := [disk, ssd, archive, ramDisk]

def reader : Json.Reader Document := Json.Reader.choice (all.map name)

end Medium

/-- A volume as a node announces it. -/
structure Announcement where
  id : String
  state : StorageState := .normal
  medium : Medium := .disk
  deriving DecidableEq, Repr, Inhabited

namespace Announcement

def document (a : Announcement) : Document :=
  .table [("storage_id", .text a.id), ("state", .text a.state.name),
    ("storage_type", .text a.medium.name)]

def reader : Json.Reader Document :=
  Json.Reader.record "DatanodeStorage"
    [⟨"storage_id", Json.Reader.text, none⟩, ⟨"state", StorageState.reader, none⟩,
     ⟨"storage_type", Medium.reader, some (.text Medium.disk.name)⟩]

end Announcement

/-- The figures of one volume in a heartbeat. -/
structure StorageReport where
  storage : Announcement
  failed : Bool := false
  capacity : UInt64
  dfsUsed : UInt64
  remaining : UInt64
  blockPoolUsed : UInt64
  deriving DecidableEq, Repr

namespace StorageReport

def document (r : StorageReport) : Document :=
  .table [("storage", r.storage.document), ("failed", .bool r.failed),
    ("capacity", .word64 r.capacity), ("dfs_used", .word64 r.dfsUsed),
    ("remaining", .word64 r.remaining), ("block_pool_used", .word64 r.blockPoolUsed)]

def reader : Json.Reader Document :=
  Json.Reader.record "StorageReport"
    [⟨"storage", Announcement.reader, none⟩, ⟨"failed", Json.Reader.flag, some (.bool false)⟩,
     ⟨"capacity", Json.Reader.word64, none⟩, ⟨"dfs_used", Json.Reader.word64, none⟩,
     ⟨"remaining", Json.Reader.word64, none⟩, ⟨"block_pool_used", Json.Reader.word64, none⟩]

/-- The state that a report gives to its volume. -/
def state (r : StorageReport) : StorageState := if r.failed then .failed else r.storage.state

/-- A made-up report of a volume that fills by a hundredth in every round and starts again after a
hundred rounds. -/
def synthetic (storage : Announcement) (capacity round : UInt64) : StorageReport :=
  let used := capacity / 100 * (round % 100 + 1)
  { storage, capacity, dfsUsed := used, remaining := Word.saturatingSub capacity used,
    blockPoolUsed := used }

end StorageReport

/-- The figures of a volume in the last heartbeat that reported it. -/
structure Usage where
  capacity : UInt64 := 0
  dfsUsed : UInt64 := 0
  remaining : UInt64 := 0
  blockPoolUsed : UInt64 := 0
  lastUpdate : UInt64 := 0
  deriving DecidableEq, Repr, Inhabited

def Usage.document (u : Usage) : Document :=
  .table [("capacity", .word64 u.capacity), ("dfs_used", .word64 u.dfsUsed),
    ("remaining", .word64 u.remaining), ("block_pool_used", .word64 u.blockPoolUsed),
    ("last_update", .word64 u.lastUpdate)]

/-- The coordinator's record for a volume of the node `owner`. -/
structure Storage where
  owner : String
  id : String
  medium : Medium := .disk
  state : StorageState := .normal
  usage : Usage := {}
  /-- the full block reports since the node registered -/
  blockReports : UInt32 := 0
  /-- the writes directed here that have not been reported back -/
  scheduled : UInt32 := 0
  /-- the records of the blocks held here, by block id, the newest in front -/
  blocks : Slab UInt64 BlockRef := Slab.withLists 1
  deriving Repr

instance : Inhabited Storage := ⟨{ owner := "", id := "" }⟩

namespace Storage

/-- The block list is the only list in the arena of a volume. -/
def blockList : Nat := 0

def announced (owner : String) (a : Announcement) : Storage :=
  { owner, id := a.id, medium := a.medium, state := a.state }

def receiveHeartbeat (s : Storage) (r : StorageReport) (now : UInt64) : Storage :=
  { s with
    state := r.state
    usage := { capacity := r.capacity, dfsUsed := r.dfsUsed, remaining := r.remaining,
               blockPoolUsed := r.blockPoolUsed, lastUpdate := now } }

/-- One more full block report. The count is not allowed to leave its word. -/
def receiveBlockReport (s : Storage) : Except Fault Storage :=
  (Word.add32 s.blockReports 1).map fun blockReports => { s with blockReports }

def schedule (s : Storage) : Storage := { s with scheduled := s.scheduled + 1 }

/-- One scheduled write less, down to none. -/
def unschedule (s : Storage) : Storage :=
  { s with scheduled := if s.scheduled = 0 then 0 else s.scheduled - 1 }

def numBlocks (s : Storage) : Except Fault Nat := s.blocks.length blockList

/-- The records on the list, from head to tail. -/
def blockRefs (s : Storage) : Except Fault (List BlockRef) :=
  (s.blocks.entries blockList).map fun entries => entries.map Prod.snd

def shown (s : Storage) : String := "[" ++ s.medium.shown ++ "]" ++ s.id ++ ":" ++ s.state.shown

/-- The record in full, for diagnostics. -/
def detailed (s : Storage) : Except Fault String := do
  let count ← s.numBlocks
  pure ("DatanodeStorageInfo \x7b datanode_uuid: " ++ Text.quoted s.owner
    ++ ", storage_id: " ++ Text.quoted s.id ++ ", storage_type: " ++ s.medium.shown
    ++ ", state: " ++ s.state.shown ++ ", num_blocks: " ++ toString count ++ " \x7d")

end Storage
end DatanodeLedger
