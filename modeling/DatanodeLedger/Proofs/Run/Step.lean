import DatanodeLedger.Proofs.Request.Exec
import DatanodeLedger.Service.Cursors
import DatanodeLedger.Service.Registry

/-! The steps that callers take on a service, in any order, and the services that come of them. A step
can be refused or end in a fault; what it has changed by then stays changed. -/
namespace DatanodeLedger

/-- A change of a node that its callers make directly. -/
inductive Node.Change where
  | alive (value : Bool)
  | disallowed (value : Bool)
  | keyUpdate (value : Bool)
  | takeKeyUpdate
  | bandwidth (value : UInt64)
  | takeBandwidth
  | lastUpdate (millis : UInt64)
  | startDecommission (now : UInt64)
  | adminState (state : AdminState)
  | scan (underReplicated decommissionOnly underReplicatedOpen : UInt32)
  | startTime (time : UInt64)
  | pollTransfers (max : Nat)
  | pollRecoveries (max : Nat)
  | drainInvalidations (max : Nat)

def Node.Change.apply (node : Node) : Node.Change → Node
  | alive value => { node with alive := value }
  | disallowed value => { node with disallowed := value }
  | keyUpdate value => { node with keyUpdate := value }
  | takeKeyUpdate => node.takeKeyUpdate.2
  | bandwidth value => { node with bandwidth := value }
  | takeBandwidth => node.takeBandwidth.2
  | lastUpdate millis => node.setLastUpdate millis
  | startDecommission now => node.startDecommission now
  | adminState state => { node with decommission := node.decommission.setState state }
  | scan underReplicated decommissionOnly underReplicatedOpen =>
    { node with
      decommission := node.decommission.set underReplicated decommissionOnly underReplicatedOpen }
  | startTime time => { node with decommission := node.decommission.setStartTime time }
  | pollTransfers max => (node.pollTransfers max).2
  | pollRecoveries max => (node.pollRecoveries max).2
  | drainInvalidations max => (node.drainInvalidations max).2

/-- A change of a volume that its callers make directly. -/
inductive Storage.Change where
  | state (value : StorageState)
  | heartbeat (report : StorageReport) (now : UInt64)
  | blockReports (count : UInt32)
  | schedule
  | unschedule

def Storage.Change.apply (storage : Storage) : Storage.Change → Storage
  | state value => { storage with state := value }
  | heartbeat report now => storage.receiveHeartbeat report now
  | blockReports count => { storage with blockReports := count }
  | schedule => storage.schedule
  | unschedule => storage.unschedule

inductive Step where
  | setClock (clock : Int)
  | makeLock
  /-- someone takes a lock, gives it back or fails while holding it -/
  | changeLock (r : LockRef) (lock : NamespaceLock)
  | makeBlock (block : Block) (replication : UInt16)
  | makeOpenBlock (b : OpenBlock)
  | beginRecovery (r : OpenRef) (id : UInt64)
  | commit (r : OpenRef)
  | makeCoordinator (limits : Limits)
  /-- a coordinator that is given up lets go of its nodes -/
  | dropCoordinator (c : CoordinatorRef)
  /-- whoever makes a node holds it -/
  | makeNode (r : Registration) (location : String)
  | pin (n : NodeRef)
  | unpin (n : NodeRef)
  | openCursor (s : StorageRef)
  | advance (r : CursorRef)
  | closeCursor (r : CursorRef)
  | bind (n : NodeRef) (r : LockRef)
  | updateStorage (n : NodeRef) (a : Announcement)
  | updateRegistration (n : NodeRef) (r : Registration)
  | changeNode (n : NodeRef) (change : Node.Change)
  | changeStorage (s : StorageRef) (change : Storage.Change)
  | receiveBlockReport (s : StorageRef)
  | updateHeartbeat (n : NodeRef) (h : Heartbeat)
  | addBlock (g : Guard) (n : NodeRef) (id : String) (b : BlockRef)
  | removeBlock (g : Guard) (n : NodeRef) (b : BlockRef)
  | removeBlockFrom (g : Guard) (n : NodeRef) (id : String) (b : BlockRef)
  | replaceBlock (g : Guard) (n : NodeRef) (old new : BlockRef)
  | removeAllBlocks (g : Guard) (n : NodeRef)
  | addTransfer (n : NodeRef) (b : Block) (targets : List StorageRef)
  | addRecovery (n : NodeRef) (b : OpenRef)
  | addInvalidations (n : NodeRef) (bs : List Block)
  | cache (g : Guard) (n : NodeRef) (f : CacheLists → Except Fault (PUnit × CacheLists))
  | resetBlocks (g : Guard) (n : NodeRef)
  | clearQueues (g : Guard) (n : NodeRef)
  | register (c : CoordinatorRef) (r : Registration) (storages : List Announcement)
  | removeNode (c : CoordinatorRef) (uuid : String)
  | heartbeat (c : CoordinatorRef) (uuid : String) (h : Heartbeat)
  | checkHeartbeats (c : CoordinatorRef) (now : UInt64)
  | setBandwidth (c : CoordinatorRef) (bandwidth : UInt64)
  | requestKeyUpdate (c : CoordinatorRef)
  | addReportedBlock (c : CoordinatorRef) (uuid id : String) (b : BlockRef)
  | addRecoveryOn (c : CoordinatorRef) (uuid : String) (b : OpenRef)

namespace Step

/-- The service after a step. -/
def after (s : Service) : Step → Service
  | setClock clock => ((Request.modifyLedger fun l => { l with clock }).exec s).2
  | makeLock => ((Request.make Ledger.addLock).exec s).2
  | changeLock r lock => ((Request.modifyLedger fun l => l.modifyLock r fun _ => lock).exec s).2
  | makeBlock block replication =>
    ((Request.make fun l => l.addBlock { block, replication }).exec s).2
  | makeOpenBlock b => ((Request.make fun l => l.addOpenBlock b).exec s).2
  | beginRecovery r id =>
    ((Request.modifyLedger fun l => l.modifyOpenBlock r (·.beginRecovery id)).exec s).2
  | commit r => ((Request.modifyLedger fun l => l.modifyOpenBlock r OpenBlock.commit).exec s).2
  | makeCoordinator limits => ((Request.make fun l => l.addCoordinator limits).exec s).2
  | dropCoordinator c =>
    ((Request.modifyLedger fun l => l.modifyCoordinator c ({ · with nodes := {} })).exec s).2
  | makeNode r location =>
    ((do
      let n ← Request.openNode r location
      Request.modifyLedger fun l => l.pin n : Request PUnit).exec s).2
  | pin n => ((Request.modifyLedger fun l => l.pin n).exec s).2
  | unpin n => ((Request.modifyLedger fun l => l.unpin n).exec s).2
  | openCursor storage => ((Request.openCursor storage).exec s).2
  | advance r => ((Request.advance r).exec s).2
  | closeCursor r => ((Request.closeCursor r).exec s).2
  | bind n r => ((Request.bind n r).exec s).2
  | updateStorage n a => ((Request.updateStorage n a).exec s).2
  | updateRegistration n r => ((Request.updateRegistration n r).exec s).2
  | changeNode n change => ((Request.modifyNode n change.apply).exec s).2
  | changeStorage storage change =>
    ((Request.modifyLedger fun l => l.modifyStorage storage change.apply).exec s).2
  | receiveBlockReport storage => ((Request.receiveBlockReport storage).exec s).2
  | updateHeartbeat n h => ((Request.updateHeartbeat n h).exec s).2
  | addBlock g n id b => ((Request.addBlock g n id b).exec s).2
  | removeBlock g n b => ((Request.removeBlock g n b).exec s).2
  | removeBlockFrom g n id b => ((Request.removeBlockFrom g n id b).exec s).2
  | replaceBlock g n old new => ((Request.replaceBlock g n old new).exec s).2
  | removeAllBlocks g n => ((Request.removeAllBlocks g n).exec s).2
  | addTransfer n b targets => ((Request.addTransfer n b targets).exec s).2
  | addRecovery n b => ((Request.addRecovery n b).exec s).2
  | addInvalidations n bs => ((Request.addInvalidations n bs).exec s).2
  | cache g n f => ((Request.cache g n f).exec s).2
  | resetBlocks g n => ((Request.resetBlocks g n).exec s).2
  | clearQueues g n => ((Request.clearQueues g n).exec s).2
  | register c r storages => ((Request.register c r storages).exec s).2
  | removeNode c uuid => ((Request.removeNode c uuid).exec s).2
  | heartbeat c uuid h => ((Request.heartbeat c uuid h).exec s).2
  | checkHeartbeats c now => ((Request.checkHeartbeats c now).exec s).2
  | setBandwidth c bandwidth => ((Request.setBandwidth c bandwidth).exec s).2
  | requestKeyUpdate c => ((Request.requestKeyUpdate c).exec s).2
  | addReportedBlock c uuid id b => ((Request.addReportedBlock c uuid id b).exec s).2
  | addRecoveryOn c uuid b => ((Request.addRecoveryOn c uuid b).exec s).2

/-- A caller can name only what is there: a node that someone holds, a volume that is live, a record
that has been made. -/
def Enabled (l : Ledger) : Step → Prop
  | pin n | bind n _ | updateStorage n _ | updateRegistration n _ | changeNode n _
  | updateHeartbeat n _ | removeAllBlocks _ n | addRecovery n _ | addInvalidations n _ | cache _ n _
  | resetBlocks _ n | clearQueues _ n => n ∈ l.heldNodes
  | openCursor s | changeStorage s _ | receiveBlockReport s => l.isLive s = true
  | addBlock _ n _ b | removeBlock _ n b | removeBlockFrom _ n _ b =>
    n ∈ l.heldNodes ∧ b.index < l.blocks.size
  | replaceBlock _ n old new =>
    n ∈ l.heldNodes ∧ old.index < l.blocks.size ∧ new.index < l.blocks.size
  | addTransfer n _ targets => n ∈ l.heldNodes ∧ ∀ t ∈ targets, l.isLive t = true
  | addReportedBlock _ _ _ b => b.index < l.blocks.size
  | setClock _ | makeLock | changeLock .. | makeBlock .. | makeOpenBlock _ | beginRecovery .. | commit _
  | makeCoordinator _ | dropCoordinator _ | makeNode .. | unpin _ | advance _ | closeCursor _ | register .. | removeNode ..
  | heartbeat .. | checkHeartbeats .. | setBandwidth .. | requestKeyUpdate _ | addRecoveryOn .. => True

instance (l : Ledger) (step : Step) : Decidable (step.Enabled l) := by
  cases step <;> unfold Enabled <;> infer_instance

end Step

/-- The services that steps lead to from one that keeps no records yet. -/
inductive Reachable : Service → Prop
  | start (clock : Int) : Reachable { ledger := { clock } }
  | step {s : Service} (h : Reachable s) {step : Step} (hstep : step.Enabled s.ledger) :
    Reachable (step.after s)

/-- The service after some steps. -/
def Service.run (s : Service) : List Step → Service
  | [] => s
  | step :: steps => (step.after s).run steps

/-- Every step is enabled where it is taken. -/
def Service.Legal (s : Service) : List Step → Prop
  | [] => True
  | step :: steps => step.Enabled s.ledger ∧ (step.after s).Legal steps

instance Service.decidableLegal (s : Service) : (steps : List Step) → Decidable (s.Legal steps)
  | [] => isTrue trivial
  | step :: steps =>
    have := decidableLegal (step.after s) steps
    inferInstanceAs (Decidable (_ ∧ _))

/-- A property holds at the start of some steps and after each of them. -/
def Service.Throughout (P : Service → Prop) (s : Service) : List Step → Prop
  | [] => P s
  | step :: steps => P s ∧ (step.after s).Throughout P steps

instance Service.decidableThroughout (P : Service → Prop) [DecidablePred P] (s : Service) :
    (steps : List Step) → Decidable (s.Throughout P steps)
  | [] => inferInstanceAs (Decidable (P s))
  | step :: steps =>
    have := decidableThroughout P (step.after s) steps
    inferInstanceAs (Decidable (_ ∧ _))

/-- Of some steps none is of a kind where it is taken. -/
def Service.Never (D : Service → Step → Prop) (s : Service) : List Step → Prop
  | [] => True
  | step :: steps => ¬ D s step ∧ (step.after s).Never D steps

instance Service.decidableNever (D : Service → Step → Prop) [∀ s step, Decidable (D s step)] (s : Service) :
    (steps : List Step) → Decidable (s.Never D steps)
  | [] => isTrue trivial
  | step :: steps =>
    have := decidableNever D (step.after s) steps
    inferInstanceAs (Decidable (_ ∧ _))

theorem Service.Throughout.head {P : Service → Prop} {s : Service} {steps : List Step} (h : s.Throughout P steps) :
    P s := by
  cases steps with
  | nil => exact h
  | cons step steps => exact h.1

/-- What the steps bring one after the other. -/
def Service.along {α : Type} (f : Service → Step → List α) (s : Service) : List Step → List α
  | [] => []
  | step :: steps => f s step ++ (step.after s).along f steps

theorem Service.run_append (s : Service) (steps later : List Step) :
    s.run (steps ++ later) = (s.run steps).run later := by
  induction steps generalizing s with
  | nil => rfl
  | cons step steps ih => exact ih (step.after s)

theorem Service.legal_append {s : Service} {steps later : List Step} :
    s.Legal (steps ++ later) ↔ s.Legal steps ∧ (s.run steps).Legal later := by
  induction steps generalizing s with
  | nil => exact (and_iff_right trivial).symm
  | cons step steps ih => exact (and_congr_right' ih).trans and_assoc.symm

/-- The last of what some events bring, and what there was before them if they bring nothing. -/
def latest {α β : Type} (bring : α → Option β) (initial : β) (events : List α) : β :=
  (events.filterMap bring).getLast?.getD initial

theorem latest_cons {α β : Type} (bring : α → Option β) (initial : β) (event : α) (events : List α) :
    latest bring initial (event :: events) = latest bring ((bring event).getD initial) events := by
  cases h : bring event with
  | none => rw [latest, List.filterMap_cons_none h, latest, Option.getD_none]
  | some b => rw [latest, List.filterMap_cons_some h, List.getLast?_cons, latest, Option.getD_some, Option.getD_some]

theorem Reachable.run {s : Service} (h : Reachable s) {steps : List Step} (hsteps : s.Legal steps) :
    Reachable (s.run steps) := by
  induction steps generalizing s with
  | nil => exact h
  | cons step steps ih => exact ih (h.step hsteps.1) hsteps.2

theorem Reachable.throughout {P : Service → Prop} (hP : ∀ s, Reachable s → P s) {s : Service} (h : Reachable s)
    {steps : List Step} (hsteps : s.Legal steps) : s.Throughout P steps := by
  induction steps generalizing s with
  | nil => exact hP s h
  | cons step steps ih => exact ⟨hP s h, ih (h.step hsteps.1) hsteps.2⟩

/-- What holds at the start and is kept by every step holds of every service that is reached. -/
theorem Reachable.induct {P : Ledger → Prop} (start : ∀ clock, P { clock })
    (step : ∀ s (step : Step), P s.ledger → step.Enabled s.ledger → P (step.after s).ledger) {s : Service}
    (h : Reachable s) : P s.ledger := by
  induction h with
  | start clock => exact start clock
  | step h hstep ih => exact step _ _ ih hstep

end DatanodeLedger
