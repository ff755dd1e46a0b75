import DatanodeLedger.Service.Work

/-! Heartbeats: what they change in the record of their node, and the commands that go back. -/
namespace DatanodeLedger

/-- What a node is told in the answer to a heartbeat. -/
inductive Command where
  /-- the coordinator has lost track of the node, which has to register again -/
  | register
  | replicate (transfers : List Transfer)
  | recover (blocks : List OpenRef)
  | invalidate (blocks : List Block)
  /-- a new balancer bandwidth in bytes per second -/
  | balancerBandwidth (bandwidth : UInt64)
  | keyUpdate
  deriving Repr

namespace Command

def name : Command → String
  | register => "register"
  | replicate _ => "replicate"
  | recover _ => "recover"
  | invalidate _ => "invalidate"
  | balancerBandwidth _ => "balancer_bandwidth"
  | keyUpdate => "key_update"

def shown (c : Command) : String :=
  let counted (n : Nat) := c.name ++ "(" ++ toString n ++ ")"
  match c with
  | replicate transfers => counted transfers.length
  | recover blocks => counted blocks.length
  | invalidate blocks => counted blocks.length
  | balancerBandwidth bandwidth => counted bandwidth.toNat
  | register | keyUpdate => c.name

end Command

namespace Request

/-- Fold one report into the record of its volume and into the sums. An unknown volume changes
nothing and is counted. -/
def receiveReport (n : NodeRef) (now : UInt64) (sums : NodeStats × Nat)
    (r : StorageReport) : Request (NodeStats × Nat) := do
  match (← ledger).storageOf? n r.storage.id with
  | some s =>
    modifyLedger fun l => l.modifyStorage s fun storage => storage.receiveHeartbeat r now
    pure (sums.1.add r, sums.2)
  | none =>
    record (.unrecognizedStorage r.storage.id (← node n).uuid)
    pure (sums.1, sums.2 + 1)

/-- Fold a heartbeat into the record of its node. The aggregates are the sums over the reports of
known volumes; the others are counted. -/
def updateHeartbeat (n : NodeRef) (h : Heartbeat) : Request Nat := do
  let now := (← ledger).now
  modifyNode n fun node => { node with volumeFailures := h.volumeFailures }
  let (sums, unknown) ← h.reports.foldlM (receiveReport n now) ({}, 0)
  modifyNode n fun node =>
    { node with
      stats := { sums with
        cacheCapacity := h.cacheCapacity, cacheUsed := h.cacheUsed, transfers := h.transfers,
        lastUpdate := now } }
  pure unknown

def dispatched (c : CoordinatorRef) (counter : Counter) (n : Nat) : Request PUnit :=
  modifyMetrics c fun m => m.add counter (UInt64.ofNat n)

/-- The pending work of a live node, within the limits. Lease recovery goes out alone. -/
def commands (c : CoordinatorRef) (n : NodeRef) : Request (List Command) := do
  let limits := ((← ledger).coordinator c).limits
  match ← takeFrom n fun node => node.pollRecoveries limits.maxRecoveryStreams.toNat with
  | some blocks =>
    dispatched c .blocksToRecoverDispatched blocks.length
    pure [.recover blocks]
  | none =>
    let transfers ← takeFrom n fun node => node.pollTransfers limits.maxReplicationStreams.toNat
    if let some transfers := transfers then
      dispatched c .blocksToReplicateDispatched transfers.length
    let blocks ← takeFrom n fun node => node.drainInvalidations limits.blockInvalidateLimit.toNat
    if let some blocks := blocks then
      dispatched c .blocksToInvalidateDispatched blocks.length
    let bandwidth ← takeFrom n Node.takeBandwidth
    let keyUpdate ← takeFrom n Node.takeKeyUpdate
    pure ((transfers.map Command.replicate).toList ++ (blocks.map Command.invalidate).toList
      ++ (bandwidth.map Command.balancerBandwidth).toList
      ++ (if keyUpdate then [.keyUpdate] else []))

/-- Take in a heartbeat and answer it. A node that was declared dead is told to register and nothing
else. -/
def heartbeat (c : CoordinatorRef) (uuid : String) (h : Heartbeat) :
    Request (Except Error (List Command)) := do
  match ((← ledger).coordinator c).nodes.find? uuid with
  | none =>
    modifyMetrics c fun m => m.increment .rejectedHeartbeats
    pure (.error (.unregisteredDatanode uuid))
  | some n =>
    let node ← node n
    if node.disallowed then
      modifyMetrics c fun m => m.increment .rejectedHeartbeats
      record (.disallowedHeartbeat node.shown)
      pure (.error (.disallowedDatanode uuid))
    else
      modifyMetrics c fun m => m.increment .heartbeatsTotal
      if !node.alive then pure (.ok [.register])
      else
        let unknown ← updateHeartbeat n h
        modifyMetrics c fun m => m.add .unknownStorageReports (UInt64.ofNat unknown)
        pure (.ok (← commands c n))

end Request
end DatanodeLedger
