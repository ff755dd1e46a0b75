import DatanodeLedger.Ledger.Basic

/-! Records of the ledger as documents, for those who look into it from outside. References are
followed, so that a document stands for itself. -/
namespace DatanodeLedger

/-- A block in short: its id, its length and its stamp. -/
def Block.brief (b : Block) : Document := .list [.word64 b.id, .word64 b.length, .word64 b.stamp]

/-- The progress of a decommission in short, the start in the end. -/
def DecommissionProgress.brief (p : DecommissionProgress) : Document :=
  .list [.word32 p.underReplicated, .word32 p.decommissionOnly, .word32 p.underReplicatedOpen,
    .word64 p.startTime]

namespace Ledger

/-- A block with the live volumes that hold it, each after its node. -/
def blockDocument (l : Ledger) (r : BlockRef) : Document :=
  let record := l.block r
  let holders := (l.holders r).map l.storage
  .table [("block", record.block.brief), ("shown", .text record.block.shown),
    ("replication", .word16 record.replication), ("num_storages", .natural holders.length),
    ("storages", .list (holders.map fun s => .list [.text s.owner, .text s.id]))]

def openBlockDocument (l : Ledger) (r : OpenRef) : Document :=
  let b := l.openBlock r
  .table [("block", b.block.brief), ("state", .text b.phase.name),
    ("recovery_id", .word64 b.recoveryId), ("locations", .list (b.locations.map .text)),
    ("shown", .text b.shown)]

def transferDocument (l : Ledger) (t : Transfer) : Document :=
  let targets := t.targets.map l.storage
  .table [("block", t.block.brief), ("storages", .list (targets.map fun s => .text s.id)),
    ("nodes", .list (targets.map fun s => .text s.owner))]

/-- A volume with its blocks from head to tail. -/
def storageDocument (l : Ledger) (r : StorageRef) : Except Fault Document := do
  let s := l.storage r
  let blocks ← s.blockRefs
  let count ← s.numBlocks
  pure (.table [("id", .text s.id), ("node", .text s.owner), ("type", .text s.medium.name),
    ("state", .text s.state.name), ("usage", s.usage.document), ("reports", .word32 s.blockReports),
    ("scheduled", .word32 s.scheduled), ("num_blocks", .natural count),
    ("blocks", .list (blocks.map fun b => .text (l.block b).block.shown))])

/-- The volumes of a node, sorted by their ids. -/
def storageDocuments (l : Ledger) (n : NodeRef) : Except Fault (List Document) :=
  let before (a b : StorageRef) : Bool := (l.storage a).id ≤ (l.storage b).id
  ((l.node n).storages.values.mergeSort before).mapM l.storageDocument

end Ledger
end DatanodeLedger
