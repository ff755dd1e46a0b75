import DatanodeLedger.Document.Json.Reader
import DatanodeLedger.Ref

/-! Blocks, the coordinator's records for them, and blocks that are still being written. -/
namespace DatanodeLedger

/-- A block as it is named by the nodes. Its id alone tells which block it is; its length and its
generation stamp change over time. -/
structure Block where
  id : UInt64
  length : UInt64
  stamp : UInt64
  deriving DecidableEq, Repr, Inhabited

namespace Block

def same (a b : Block) : Bool := a.id == b.id

def shown (b : Block) : String := "blk_" ++ toString b.id.toNat ++ "_" ++ toString b.stamp.toNat

def document (b : Block) : Document :=
  .table [("block_id", .word64 b.id), ("num_bytes", .word64 b.length),
    ("generation_stamp", .word64 b.stamp)]

def reader : Json.Reader Document :=
  Json.Reader.record "Block"
    [⟨"block_id", Json.Reader.word64, none⟩, ⟨"num_bytes", Json.Reader.word64, none⟩,
     ⟨"generation_stamp", Json.Reader.word64, none⟩]

end Block

/-- The coordinator's record for a block. The storages that hold it are listed in the order in which
they came to hold it, up to removals; some of them may be gone. -/
structure BlockRecord where
  block : Block
  replication : UInt16 := 3
  holders : List StorageRef := []
  deriving Repr, Inhabited

/-- Remove an item by moving the last one into its place. -/
def swapRemove {α : Type} [DecidableEq α] (a : α) (as : List α) : List α :=
  match as.idxOf? a, as.getLast? with
  | some i, some last => (as.set i last).dropLast
  | _, _ => as

/-- How far the writing of a block has come. -/
inductive Phase where
  | underConstruction
  | underRecovery
  | committed
  deriving DecidableEq, Repr, Inhabited

namespace Phase

def shown : Phase → String
  | underConstruction => "UnderConstruction"
  | underRecovery => "UnderRecovery"
  | committed => "Committed"

/-- The name of a phase in documents. -/
def name : Phase → String
  | underConstruction => "under_construction"
  | underRecovery => "under_recovery"
  | committed => "committed"

def all : List Phase := [underConstruction, underRecovery, committed]

def reader : Json.Reader Document := Json.Reader.choice (all.map name)

end Phase

/-- A block that is still being written, as an item of lease recovery. The locations are the nodes
of the write pipeline. -/
structure OpenBlock where
  block : Block
  phase : Phase := .underConstruction
  recoveryId : UInt64 := 0
  locations : List String := []
  deriving Repr, Inhabited

namespace OpenBlock

def shown (b : OpenBlock) : String :=
  b.block.shown ++ "\x7bstate=" ++ b.phase.shown ++ ", recovery_id="
    ++ toString b.recoveryId.toNat ++ "\x7d"

/-- Enter recovery under a new id. -/
def beginRecovery (b : OpenBlock) (id : UInt64) : OpenBlock :=
  { b with phase := .underRecovery, recoveryId := id }

def commit (b : OpenBlock) : OpenBlock := { b with phase := .committed }

end OpenBlock
end DatanodeLedger
