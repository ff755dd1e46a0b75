import DatanodeLedger.Limits
import DatanodeLedger.Metrics
import DatanodeLedger.Node

/-! The ledger: every record that the coordinators of one process keep. Records are made and never
unmade; whether one still counts is read off from who holds it. A reference that names no record
reads as an empty record. -/
namespace DatanodeLedger

/-- A lock under which block membership and cache lists change. Every coordinator has one. -/
structure NamespaceLock where
  held : Bool := false
  /-- a request failed while it held the lock -/
  poisoned : Bool := false
  deriving DecidableEq, Repr, Inhabited

/-- Where a cursor stands on a block list. -/
inductive Position where
  | start
  | slot (slot : Nat)
  | done
  deriving DecidableEq, Repr

/-- A walk over the block list of one volume. The list can change between two steps. -/
structure Cursor where
  storage : StorageRef
  position : Position := .start
  deriving DecidableEq, Repr

/-- A registry of nodes with the limits and the lock that apply to them. -/
structure Coordinator where
  limits : Limits := {}
  lock : LockRef := ⟨0⟩
  nodes : Table String NodeRef := {}
  metrics : Metrics := {}
  deriving Repr, Inhabited

structure Ledger where
  /-- the time in milliseconds since 1970 -/
  clock : Int := 0
  locks : Array NamespaceLock := #[]
  blocks : Array BlockRecord := #[]
  openBlocks : Array OpenBlock := #[]
  storages : Array Storage := #[]
  nodes : Array Node := #[]
  coordinators : Array Coordinator := #[]
  /-- the cursors; a closed one has left its place empty -/
  cursors : Array (Option Cursor) := #[]
  /-- the nodes that someone holds apart from the coordinators, once for every holder -/
  pins : List NodeRef := []
  deriving Repr, Inhabited

namespace Ledger

/-- The time as a timestamp, zero before 1970. -/
def now (l : Ledger) : UInt64 := UInt64.ofNat l.clock.toNat

def lock (l : Ledger) (r : LockRef) : NamespaceLock := l.locks[r.index]?.getD default

def block (l : Ledger) (r : BlockRef) : BlockRecord := l.blocks[r.index]?.getD default

def openBlock (l : Ledger) (r : OpenRef) : OpenBlock := l.openBlocks[r.index]?.getD default

def storage (l : Ledger) (r : StorageRef) : Storage := l.storages[r.index]?.getD default

def node (l : Ledger) (r : NodeRef) : Node := l.nodes[r.index]?.getD default

def coordinator (l : Ledger) (r : CoordinatorRef) : Coordinator :=
  l.coordinators[r.index]?.getD default

def cursor? (l : Ledger) (r : CursorRef) : Option Cursor := l.cursors[r.index]?.join

def modifyLock (l : Ledger) (r : LockRef) (f : NamespaceLock → NamespaceLock) : Ledger :=
  { l with locks := l.locks.modify r.index f }

def modifyBlock (l : Ledger) (r : BlockRef) (f : BlockRecord → BlockRecord) : Ledger :=
  { l with blocks := l.blocks.modify r.index f }

def modifyOpenBlock (l : Ledger) (r : OpenRef) (f : OpenBlock → OpenBlock) : Ledger :=
  { l with openBlocks := l.openBlocks.modify r.index f }

def modifyStorage (l : Ledger) (r : StorageRef) (f : Storage → Storage) : Ledger :=
  { l with storages := l.storages.modify r.index f }

def modifyNode (l : Ledger) (r : NodeRef) (f : Node → Node) : Ledger :=
  { l with nodes := l.nodes.modify r.index f }

def modifyCoordinator (l : Ledger) (r : CoordinatorRef) (f : Coordinator → Coordinator) : Ledger :=
  { l with coordinators := l.coordinators.modify r.index f }

def addLock (l : Ledger) : LockRef × Ledger :=
  (⟨l.locks.size⟩, { l with locks := l.locks.push {} })

def addBlock (l : Ledger) (b : BlockRecord) : BlockRef × Ledger :=
  (⟨l.blocks.size⟩, { l with blocks := l.blocks.push b })

def addOpenBlock (l : Ledger) (b : OpenBlock) : OpenRef × Ledger :=
  (⟨l.openBlocks.size⟩, { l with openBlocks := l.openBlocks.push b })

def addStorage (l : Ledger) (s : Storage) : StorageRef × Ledger :=
  (⟨l.storages.size⟩, { l with storages := l.storages.push s })

def addNode (l : Ledger) (n : Node) : NodeRef × Ledger :=
  (⟨l.nodes.size⟩, { l with nodes := l.nodes.push n })

def addCursor (l : Ledger) (c : Cursor) : CursorRef × Ledger :=
  (⟨l.cursors.size⟩, { l with cursors := l.cursors.push (some c) })

/-- A new coordinator with a lock of its own, which starts to count now. -/
def addCoordinator (l : Ledger) (limits : Limits) : CoordinatorRef × Ledger :=
  let (lock, l) := l.addLock
  let c : Coordinator := { limits, lock, metrics := { started := l.clock } }
  (⟨l.coordinators.size⟩, { l with coordinators := l.coordinators.push c })

def pin (l : Ledger) (r : NodeRef) : Ledger := { l with pins := r :: l.pins }

def unpin (l : Ledger) (r : NodeRef) : Ledger := { l with pins := l.pins.erase r }

def setCursor (l : Ledger) (r : CursorRef) (c : Cursor) : Ledger :=
  { l with cursors := l.cursors.setIfInBounds r.index (some c) }

def closeCursor (l : Ledger) (r : CursorRef) : Ledger :=
  { l with cursors := l.cursors.setIfInBounds r.index none }

/-- The nodes that somebody holds: a coordinator, or someone apart from them. -/
def heldNodes (l : Ledger) : List NodeRef :=
  l.pins ++ l.coordinators.toList.flatMap fun c => c.nodes.values

/-- Whether a node keeps a volume, as its own or as a target of a queued transfer. -/
def keeps (l : Ledger) (n : NodeRef) (s : StorageRef) : Bool :=
  (l.node n).storages.values.contains s
    || (l.node n).transfers.items.any fun t => t.targets.contains s

/-- Whether a volume is still there: a node that is held keeps it, or a cursor is open on it. -/
def isLive (l : Ledger) (s : StorageRef) : Bool :=
  l.heldNodes.any (l.keeps · s) || l.cursors.toList.any fun c => c.any (·.storage == s)

/-- The live volumes that hold a block, in the order of its back-references. -/
def holders (l : Ledger) (b : BlockRef) : List StorageRef :=
  (l.block b).holders.filter l.isLive

/-- The first live volume of the node `uuid` that holds a block. -/
def holderOn? (l : Ledger) (b : BlockRef) (uuid : String) : Option StorageRef :=
  (l.holders b).find? fun s => (l.storage s).owner == uuid

/-- The volumes of a node, by their ids. -/
def storageOf? (l : Ledger) (n : NodeRef) (id : String) : Option StorageRef :=
  (l.node n).storages.find? id

end Ledger
end DatanodeLedger
