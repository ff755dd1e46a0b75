import DatanodeLedger.Document.Json.Reader
import DatanodeLedger.Slab

/-! The cache pipeline of a node: three lists in one arena, so that a block is in at most one of
them. -/
namespace DatanodeLedger

inductive CacheStage where
  | pendingCached
  | cached
  | pendingUncached
  deriving DecidableEq, Repr

namespace CacheStage

def all : List CacheStage := [pendingCached, cached, pendingUncached]

/-- The place of the list in the arena. -/
def index : CacheStage → Nat
  | pendingCached => 0
  | cached => 1
  | pendingUncached => 2

/-- The stage with the given list. -/
def ofIndex (i : Nat) : Except Fault CacheStage :=
  match i with
  | 0 => .ok pendingCached
  | 1 => .ok cached
  | 2 => .ok pendingUncached
  | i => .error (.outOfBounds 3 i)

def name : CacheStage → String
  | pendingCached => "pending_cached"
  | cached => "cached"
  | pendingUncached => "pending_uncached"

def reader : Json.Reader Document := Json.Reader.choice (all.map name)

end CacheStage

structure CachedBlock where
  id : UInt64
  stamp : UInt64
  replication : UInt16
  deriving DecidableEq, Repr

def CachedBlock.reader : Json.Reader Document :=
  Json.Reader.record "CachedBlock"
    [⟨"block_id", Json.Reader.word64, none⟩, ⟨"generation_stamp", Json.Reader.word64, none⟩,
     ⟨"replication", Json.Reader.word16, none⟩]

/-- The three lists of the pipeline. -/
structure CacheLists where
  slab : Slab UInt64 CachedBlock := Slab.withLists 3
  deriving Repr

namespace CacheLists

def lift {β : Type} (r : Except Fault (β × Slab UInt64 CachedBlock)) :
    Except Fault (β × CacheLists) :=
  r.map fun (b, slab) => (b, ⟨slab⟩)

/-- Append to a list. False if the block is in a list already. -/
def add (c : CacheLists) (stage : CacheStage) (b : CachedBlock) :
    Except Fault (Bool × CacheLists) :=
  lift (c.slab.pushBack stage.index b.id b)

/-- Remove from a list, if the block is in that very list. -/
def remove (c : CacheLists) (stage : CacheStage) (id : UInt64) :
    Except Fault (Option CachedBlock × CacheLists) :=
  lift (c.slab.removeFrom stage.index id)

/-- Append to a list, out of whichever list holds the block. Returns that list. -/
def moveTo (c : CacheLists) (stage : CacheStage) (b : CachedBlock) :
    Except Fault (Option CacheStage × CacheLists) := do
  let (removed, slab) ← c.slab.remove b.id
  let source ← removed.mapM fun (i, _) => CacheStage.ofIndex i
  let (_, slab) ← slab.pushBack stage.index b.id b
  pure (source, ⟨slab⟩)

def listOf? (c : CacheLists) (id : UInt64) : Except Fault (Option CacheStage) := do
  (← c.slab.listOf? id).mapM CacheStage.ofIndex

def contains (c : CacheLists) (stage : CacheStage) (id : UInt64) : Except Fault Bool := do
  pure ((← c.listOf? id) = some stage)

def length (c : CacheLists) (stage : CacheStage) : Except Fault Nat := c.slab.length stage.index

def isEmpty (c : CacheLists) : Bool := c.slab.isEmpty

def blocks (c : CacheLists) (stage : CacheStage) : Except Fault (List CachedBlock) :=
  (c.slab.entries stage.index).map fun entries => entries.map Prod.snd

/-- Empty a list, and count what it held. -/
def clear (c : CacheLists) (stage : CacheStage) : Except Fault (Nat × CacheLists) :=
  lift (c.slab.clearList stage.index)

def clearAll (c : CacheLists) : CacheLists := ⟨c.slab.clear⟩

end CacheLists
end DatanodeLedger
