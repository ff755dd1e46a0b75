import DatanodeLedger.Service.Blocks
import DatanodeLedger.Service.Heartbeat
import DatanodeLedger.Service.Storages

/-! The registry of a coordinator: nodes come and go, are declared dead when they fall silent, and
get what is meant for all of them. -/
namespace DatanodeLedger.Request

def coordinator (c : CoordinatorRef) : Request Coordinator := do
  pure ((← ledger).coordinator c)

def registered? (c : CoordinatorRef) (uuid : String) : Request (Option NodeRef) := do
  pure ((← coordinator c).nodes.find? uuid)

def markAlive (c : CoordinatorRef) (n : NodeRef) : Request PUnit := do
  unless (← node n).alive do
    modifyNode n fun node => { node with alive := true }
    modifyMetrics c fun m => m.raise .liveDatanodes

def markDead (c : CoordinatorRef) (n : NodeRef) : Request PUnit := do
  if (← node n).alive then
    modifyNode n fun node => { node with alive := false }
    modifyMetrics c fun m => m.lower .liveDatanodes

/-- Enter a new node, tied to the lock of its coordinator. -/
def enroll (c : CoordinatorRef) (r : Registration) : Request NodeRef := do
  let n ← make fun l => l.addNode (Node.ofRegistration r)
  bind n (← coordinator c).lock
  modifyLedger fun l => l.modifyCoordinator c fun k =>
    { k with nodes := k.nodes.insert r.uuid n }
  record (.registered r.address r.uuid)
  modifyMetrics c fun m => m.raise .registeredDatanodes
  pure n

/-- Take a known node back in. It is about to send full reports, so what it has reported before is
forgotten. -/
def readmit (c : CoordinatorRef) (n : NodeRef) (r : Registration) : Request PUnit := do
  record (.registeredAgain r.address r.uuid)
  updateRegistration n r
  withLock (← coordinator c).lock fun g => resetBlocks g n

/-- Register a node with its volumes, for the first time or again. It is alive then. -/
def register (c : CoordinatorRef) (r : Registration) (storages : List Announcement) :
    Request NodeRef := do
  let n ← match ← registered? c r.uuid with
    | none => enroll c r
    | some n =>
      readmit c n r
      pure n
  storages.forM fun a => do
    let _ ← updateStorage n a
  let now := (← ledger).now
  modifyNode n fun node => node.setLastUpdate now
  markAlive c n
  pure n

/-- Hold a node while a part of a request runs. -/
def holding {α : Type} (n : NodeRef) (body : Request α) : Request α := do
  modifyLedger fun l => l.pin n
  try
    let a ← body
    modifyLedger fun l => l.unpin n
    pure a
  catch fault =>
    modifyLedger fun l => l.unpin n
    throw fault

/-- Drop the block memberships and the pending work of a node, and count the memberships. -/
def purge (c : CoordinatorRef) (n : NodeRef) : Request Nat := do
  withLock (← coordinator c).lock fun g => do
    let replicas ← removeAllBlocks g n
    clearQueues g n
    pure replicas

/-- Forget a node, with its block memberships and its pending work. The registry lets go of it
first, and whoever removes it still holds it then. -/
def removeNode (c : CoordinatorRef) (uuid : String) : Request (Option NodeRef) := do
  match ← registered? c uuid with
  | none => pure none
  | some n => holding n do
    modifyLedger fun l => l.modifyCoordinator c fun k => { k with nodes := k.nodes.erase uuid }
    let replicas ← purge c n
    markDead c n
    modifyMetrics c fun m => m.lower .registeredDatanodes
    record (.removed (← node n).shown replicas)
    pure (some n)

/-- Take in that a node has reported a block on a volume. Tells whether the membership changed. -/
def addReportedBlock (c : CoordinatorRef) (uuid storage : String) (b : BlockRef) :
    Request (Except Error Bool) := do
  match ← registered? c uuid with
  | none => pure (.error (.unregisteredDatanode uuid))
  | some n =>
    if ((← ledger).storageOf? n storage).isNone then
      pure (.error (.unknownStorage uuid storage))
    else
      let added ← withLock (← coordinator c).lock fun g => addBlock g n storage b
      pure (.ok added)

/-- Queue a lease recovery on a node. Tells whether it was queued; those that were not are
counted. -/
def addRecoveryOn (c : CoordinatorRef) (uuid : String) (b : OpenRef) :
    Request (Except Error Bool) := do
  match ← registered? c uuid with
  | none => pure (.error (.unregisteredDatanode uuid))
  | some n =>
    let added ← addRecovery n b
    unless added do
      modifyMetrics c fun m => m.increment .duplicateRecoverySubmissions
    pure (.ok added)

def modifyAll (c : CoordinatorRef) (f : Node → Node) : Request PUnit := do
  (← coordinator c).nodes.values.forM fun n => modifyNode n f

/-- Set the balancer bandwidth of every node, to be sent with its next answer. -/
def setBandwidth (c : CoordinatorRef) (bandwidth : UInt64) : Request PUnit :=
  modifyAll c fun node => { node with bandwidth }

/-- Have every node fetch new block keys. -/
def requestKeyUpdate (c : CoordinatorRef) : Request PUnit :=
  modifyAll c fun node => { node with keyUpdate := true }

/-- Declare a live node dead if it has been silent for longer than the expiry interval. -/
def checkNode (c : CoordinatorRef) (now : UInt64) (dead : List String) (n : NodeRef) :
    Request (List String) := do
  let known ← node n
  if !known.alive then pure dead
  else
    let expiry ← ((← coordinator c).limits.expiry : Except Fault UInt64)
    if known.silence now ≤ expiry then pure dead
    else
      record (.missedHeartbeats known.shown known.uuid)
      markDead c n
      pure (dead ++ [known.uuid])

/-- Declare dead all live nodes that have been silent for too long, and name them. -/
def checkHeartbeats (c : CoordinatorRef) (now : UInt64) : Request (List String) := do
  (← coordinator c).nodes.values.foldlM (checkNode c now) []

def isStale (c : CoordinatorRef) (n : NodeRef) (now : UInt64) : Request Bool := do
  pure ((← node n).isStale now (← coordinator c).limits.staleInterval)

/-- The live nodes that have been silent for longer than the stale interval. -/
def staleNodes (c : CoordinatorRef) (now : UInt64) : Request (List NodeRef) := do
  (← coordinator c).nodes.values.filterM fun n => do
    pure ((← node n).alive && (← isStale c n now))

def numLive (c : CoordinatorRef) : Request Nat := do
  let l ← ledger
  pure ((l.coordinator c).nodes.values.countP fun n => (l.node n).alive)

end DatanodeLedger.Request
