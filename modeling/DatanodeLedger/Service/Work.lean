import DatanodeLedger.Service.Namespace

/-! The work that waits for a node, its cache lists, and forgetting both. -/
namespace DatanodeLedger.Request

/-- Queue a block to be copied to volumes, in order. -/
def addTransfer (n : NodeRef) (b : Block) (targets : List StorageRef) :
    Request (Except Error PUnit) := do
  match Transfer.make b targets with
  | .error e => pure (.error e)
  | .ok transfer =>
    modifyNode n fun node => node.addTransfer transfer
    pure (.ok ⟨⟩)

/-- Queue a block for lease recovery, unless one with its id is queued. Tells whether it was. -/
def addRecovery (n : NodeRef) (b : OpenRef) : Request Bool := do
  let l ← ledger
  let same (a b : OpenRef) : Bool := (l.openBlock a).block.same (l.openBlock b).block
  let (added, recoveries) := (l.node n).recoveries.offerIfAbsent same b
  if added then modifyNode n fun node => { node with recoveries }
  else record (.recoveryQueued (l.openBlock b).block.shown)
  pure added

/-- Queue blocks for deletion, and count those that were not queued. -/
def addInvalidations (n : NodeRef) (bs : List Block) : Request (Except Error Nat) := do
  match (← node n).addInvalidations bs with
  | .error e => pure (.error e)
  | .ok (added, changed) =>
    modifyNode n fun _ => changed
    pure (.ok added)

/-- Change the cache lists of a node. -/
def cache {α : Type} (g : Guard) (n : NodeRef) (f : CacheLists → Except Fault (α × CacheLists)) :
    Request α := do
  check n g
  attempt fun l => do
    let (a, cache) ← f (l.node n).cache
    pure (a, l.modifyNode n fun node => { node with cache })

def numCached (g : Guard) (n : NodeRef) (stage : CacheStage) : Request Nat := do
  check n g
  look fun l => (l.node n).cache.length stage

def clearCache (g : Guard) (n : NodeRef) : Request PUnit :=
  cache g n fun lists => .ok (⟨⟩, lists.clearAll)

/-- Forget what the node has reported: aggregates, failed volumes, pending deletions and cache
lists. Transfers and recoveries stay. -/
def resetBlocks (g : Guard) (n : NodeRef) : Request PUnit := do
  modifyNode n Node.forgetReports
  clearCache g n

/-- Drop all pending work and the cache lists. The aggregates stay. -/
def clearQueues (g : Guard) (n : NodeRef) : Request PUnit := do
  modifyNode n Node.dropWork
  clearCache g n

end DatanodeLedger.Request
