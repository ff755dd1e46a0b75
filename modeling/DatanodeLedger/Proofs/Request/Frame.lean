import DatanodeLedger.Proofs.Membership.Attach
import DatanodeLedger.Proofs.Membership.Making
import DatanodeLedger.Proofs.Request.Exec
import DatanodeLedger.Service.Cursors
import DatanodeLedger.Service.Registry

/-! Frames. Most requests change figures, flags, cache lists and locks, make records, or hand nodes around. A
relation between ledgers that allows for such changes is respected by all of these requests, and by the
others as soon as it allows for the one change that sets each of them apart. -/
namespace DatanodeLedger

/-- A change of a node that leaves alone who it is, which volumes it keeps, and the transfers and recoveries
that wait for it. A node that is tied to a lock stays tied to it. -/
structure Node.Idle (node node' : Node) : Prop where
  uuid : node'.uuid = node.uuid
  storages : node'.storages = node.storages
  transfers : node'.transfers = node.transfers
  recoveries : node'.recoveries = node.recoveries
  lock : ∀ r, node.lock = some r → node'.lock = some r

theorem Node.idle_of_eq {node node' : Node} (uuid : node'.uuid = node.uuid)
    (storages : node'.storages = node.storages) (transfers : node'.transfers = node.transfers)
    (recoveries : node'.recoveries = node.recoveries) (lock : node'.lock = node.lock) : node.Idle node' :=
  ⟨uuid, storages, transfers, recoveries, fun _ h => lock.trans h⟩

/-- An idle change after which the node is as alive as before, and was last heard of at the same time. -/
structure Node.Calm (node node' : Node) : Prop extends node.Idle node' where
  alive : node'.alive = node.alive
  lastUpdate : node'.stats.lastUpdate = node.stats.lastUpdate

theorem Node.calm_of_eq {node node' : Node} (uuid : node'.uuid = node.uuid)
    (storages : node'.storages = node.storages) (transfers : node'.transfers = node.transfers)
    (recoveries : node'.recoveries = node.recoveries) (lock : node'.lock = node.lock)
    (alive : node'.alive = node.alive) (lastUpdate : node'.stats.lastUpdate = node.stats.lastUpdate) :
    node.Calm node' :=
  ⟨Node.idle_of_eq uuid storages transfers recoveries lock, alive, lastUpdate⟩

/-- Whether a node is alive and allowed, how far its decommission is, and what waits to be sent to it. -/
structure Node.Standing where
  alive : Bool
  disallowed : Bool
  decommission : Decommission
  recoveries : Work.Queue OpenRef
  transfers : Work.Queue Transfer
  invalidations : Work.InvalidateSet
  bandwidth : UInt64
  keyUpdate : Bool

def Node.standing (node : Node) : Node.Standing where
  alive := node.alive
  disallowed := node.disallowed
  decommission := node.decommission
  recoveries := node.recoveries
  transfers := node.transfers
  invalidations := node.invalidations
  bandwidth := node.bandwidth
  keyUpdate := node.keyUpdate

/-- A calm change that leaves alone all of that. -/
structure Node.Aside (node node' : Node) : Prop extends node.Calm node' where
  standing : node'.standing = node.standing

theorem Node.aside_of_eq {node node' : Node} (uuid : node'.uuid = node.uuid)
    (storages : node'.storages = node.storages) (lock : node'.lock = node.lock)
    (lastUpdate : node'.stats.lastUpdate = node.stats.lastUpdate) (standing : node'.standing = node.standing) :
    node.Aside node' where
  toCalm := Node.calm_of_eq uuid storages (congrArg Node.Standing.transfers standing)
    (congrArg Node.Standing.recoveries standing) lock (congrArg Node.Standing.alive standing) lastUpdate
  standing := standing

/-- A change of a volume that leaves alone whose it is, its name and its block list. -/
structure Storage.Idle (storage storage' : Storage) : Prop where
  owner : storage'.owner = storage.owner
  id : storage'.id = storage.id
  blocks : storage'.blocks = storage.blocks

/-- An idle change that leaves alone as well what the volume has been announced and reported to be. -/
structure Storage.Aside (storage storage' : Storage) : Prop extends storage.Idle storage' where
  medium : storage'.medium = storage.medium
  state : storage'.state = storage.state
  usage : storage'.usage = storage.usage

theorem Storage.aside_of_eq {storage storage' : Storage} (owner : storage'.owner = storage.owner)
    (id : storage'.id = storage.id) (blocks : storage'.blocks = storage.blocks)
    (medium : storage'.medium = storage.medium) (state : storage'.state = storage.state)
    (usage : storage'.usage = storage.usage) : storage.Aside storage' :=
  ⟨⟨owner, id, blocks⟩, medium, state, usage⟩

/-- A change of a node that has to do with the work that waits for it. Transfers that are queued have targets,
and these are live. -/
structure Ledger.Settles (l : Ledger) (node node' : Node) : Prop where
  uuid : node'.uuid = node.uuid
  storages : node'.storages = node.storages
  lock : node'.lock = node.lock
  transfers : ∀ t ∈ node'.transfers.items,
    t ∈ node.transfers.items ∨ t.targets ≠ [] ∧ ∀ v ∈ t.targets, l.isLive v = true

/-- Coordinators keep their limits and their locks. -/
structure Ledger.KeepsTerms (l l' : Ledger) : Prop where
  size : l.coordinators.size ≤ l'.coordinators.size
  limits : ∀ c : CoordinatorRef, c.index < l.coordinators.size →
    (l'.coordinator c).limits = (l.coordinator c).limits
  lock : ∀ c : CoordinatorRef, c.index < l.coordinators.size → (l'.coordinator c).lock = (l.coordinator c).lock

theorem Ledger.KeepsTerms.of_eq {l l' : Ledger} (h : l'.coordinators = l.coordinators) : l.KeepsTerms l' := by
  have hsame : ∀ c, l'.coordinator c = l.coordinator c := fun c => by unfold coordinator; rw [h]
  exact ⟨Nat.le_of_eq (congrArg Array.size h.symm), fun c _ => congrArg Coordinator.limits (hsame c),
    fun c _ => congrArg Coordinator.lock (hsame c)⟩

theorem Ledger.KeepsTerms.trans {l l' l'' : Ledger} (h : l.KeepsTerms l') (h' : l'.KeepsTerms l'') :
    l.KeepsTerms l'' where
  size := Nat.le_trans h.size h'.size
  limits c hc := (h'.limits c (Nat.lt_of_lt_of_le hc h.size)).trans (h.limits c hc)
  lock c hc := (h'.lock c (Nat.lt_of_lt_of_le hc h.size)).trans (h.lock c hc)

theorem Ledger.keepsTerms_modifyCoordinator {l : Ledger} {c : CoordinatorRef} {f : Coordinator → Coordinator}
    (hlimits : (f (l.coordinator c)).limits = (l.coordinator c).limits)
    (hlock : (f (l.coordinator c)).lock = (l.coordinator c).lock) : l.KeepsTerms (l.modifyCoordinator c f) :=
  ⟨Nat.le_of_eq Array.size_modify.symm, fun k _ => coordinator_modifyCoordinator_congr Coordinator.limits hlimits k,
    fun k _ => coordinator_modifyCoordinator_congr Coordinator.lock hlock k⟩

/-- A new coordinator is none of those that there are. -/
theorem Ledger.coordinator_addCoordinator_of_lt {l : Ledger} {c : CoordinatorRef} (hc : c.index < l.coordinators.size)
    (limits : Limits) : (l.addCoordinator limits).2.coordinator c = l.coordinator c := by
  have hget : (l.addCoordinator limits).2.coordinators[c.index]? = l.coordinators[c.index]? := by
    refine (Array.getElem?_push_lt hc).trans ?_
    exact (Array.getElem?_eq_getElem hc).symm
  unfold coordinator
  rw [hget]

theorem Ledger.keepsTerms_addCoordinator (l : Ledger) (limits : Limits) :
    l.KeepsTerms (l.addCoordinator limits).2 := by
  have hsize : (l.addCoordinator limits).2.coordinators.size = l.coordinators.size + 1 := Array.size_push ..
  exact ⟨hsize ▸ Nat.le_succ _, fun c hc => congrArg Coordinator.limits (coordinator_addCoordinator_of_lt hc limits),
    fun c hc => congrArg Coordinator.lock (coordinator_addCoordinator_of_lt hc limits)⟩

theorem Metrics.counter_raise (m : Metrics) (g : Gauge) (counter : Counter) :
    (m.raise g).counter counter = m.counter counter := by
  cases g <;> cases counter <;> rfl

theorem Metrics.counter_lower (m : Metrics) (g : Gauge) (counter : Counter) :
    (m.lower g).counter counter = m.counter counter := by
  cases g <;> cases counter <;> rfl

/-- A node that is made and keeps no volumes. -/
def Ledger.Vacant (l : Ledger) (n : NodeRef) : Prop := n.index < l.nodes.size ∧ ∀ v, l.keeps n v = false

section forget
variable {l : Ledger} {c : CoordinatorRef} {uuid : String} {n m : NodeRef}

/-- Whoever is held after a node has been taken out of the registry was held before. -/
theorem Ledger.mem_heldNodes_of_forget (hn : (l.coordinator c).nodes.find? uuid = some n)
    (hm : m ∈ (l.forget c uuid n).heldNodes) : m ∈ l.heldNodes := by
  rcases mem_heldNodes_modifyCoordinator hm with hm | ⟨hc, hm⟩
  · rcases mem_heldNodes_pin hm with rfl | hm
    · exact mem_heldNodes_of_find? hn
    · exact hm
  · exact mem_heldNodes.2 (.inr ⟨_, hc, Table.mem_values_of_mem_erase hm⟩)

theorem Ledger.lock_forget (l : Ledger) (c : CoordinatorRef) (uuid : String) (n : NodeRef) :
    ((l.forget c uuid n).coordinator c).lock = (l.coordinator c).lock :=
  coordinator_modifyCoordinator_congr (l := l.pin n) Coordinator.lock rfl c

end forget

namespace Request

/-- A relation that allows for idle changes of nodes and volumes, for nodes that come into someone's hands
or out of them, for records that are new, and for cursors on what is live. -/
class Frame (R : Ledger → Ledger → Prop) : Prop extends IsPreorder Ledger R where
  node : ∀ {l : Ledger} {n : NodeRef} {f : Node → Node},
    (l.node n).Idle (f (l.node n)) → R l (l.modifyNode n f)
  storage : ∀ {l : Ledger} {v : StorageRef} {f : Storage → Storage},
    (l.storage v).Idle (f (l.storage v)) → R l (l.modifyStorage v f)
  hands : ∀ {l l' : Ledger}, l'.nodes = l.nodes → l'.storages = l.storages → l'.blocks = l.blocks →
    l'.cursors = l.cursors → l.KeepsTerms l' → (∀ n ∈ l'.heldNodes, n ∈ l.heldNodes ∨ l.Vacant n) → R l l'
  block : ∀ (l : Ledger) (block : Block) (replication : UInt16), R l (l.addBlock { block, replication }).2
  newNode : ∀ (l : Ledger) (r : Registration) (location : String),
    R l (l.addNode { Node.ofRegistration r with location }).2
  announce : ∀ {l : Ledger} {n : NodeRef} {a : Announcement},
    l.storageOf? n a.id = none → R l (l.announce n a)
  cursors : ∀ {l : Ledger} {cursors : Array (Option Cursor)},
    (∀ c, some c ∈ cursors.toList → some c ∈ l.cursors.toList ∨ l.isLive c.storage = true) →
      R l { l with cursors }

/-- A relation that allows at least for changes of nodes that leave their standing alone, for such as leave alone what
volumes have been said to be, and for what is done under a lock that is given back. -/
class Reserved (R : Ledger → Ledger → Prop) : Prop extends IsPreorder Ledger R where
  aside : ∀ {l : Ledger} {n : NodeRef} {f : Node → Node},
    (l.node n).Aside (f (l.node n)) → R l (l.modifyNode n f)
  volume : ∀ {l : Ledger} {v : StorageRef} {f : Storage → Storage},
    (l.storage v).Aside (f (l.storage v)) → R l (l.modifyStorage v f)
  guarded : ∀ {l l' : Ledger} {r : LockRef} {f : NamespaceLock → NamespaceLock},
    R (l.modifyLock r fun lock => { lock with held := true }) l' → (∀ lock, (f lock).held = false) →
      R l (l'.modifyLock r f)

/-- One that allows for all idle changes of volumes, and for volumes that are new. -/
class Discreet (R : Ledger → Ledger → Prop) : Prop extends Reserved R where
  storage : ∀ {l : Ledger} {v : StorageRef} {f : Storage → Storage},
    (l.storage v).Idle (f (l.storage v)) → R l (l.modifyStorage v f)
  announce : ∀ {l : Ledger} {n : NodeRef} {a : Announcement},
    l.storageOf? n a.id = none → R l (l.announce n a)
  volume h := storage h.toIdle

/-- One that allows for counters that rise. -/
class Counting (R : Ledger → Ledger → Prop) : Prop extends Reserved R where
  counter : ∀ (l : Ledger) (c : CoordinatorRef) (counter : Counter) (count : UInt64),
    R l (l.modifyCoordinator c fun k => { k with metrics := k.metrics.add counter count })

/-- One that allows for all calm changes of nodes. -/
class Composed (R : Ledger → Ledger → Prop) : Prop extends Reserved R where
  node : ∀ {l : Ledger} {n : NodeRef} {f : Node → Node},
    (l.node n).Calm (f (l.node n)) → R l (l.modifyNode n f)
  aside h := node h.toCalm

class Aloof (R : Ledger → Ledger → Prop) : Prop extends Discreet R, Counting R

class Serene (R : Ledger → Ledger → Prop) : Prop extends Discreet R, Composed R

/-- One that allows for both. -/
class Still (R : Ledger → Ledger → Prop) : Prop extends Aloof R, Serene R

/-- A relation that allows for work of a node that is queued, sent or dropped. -/
def AllowsWork (R : Ledger → Ledger → Prop) (n : NodeRef) : Prop :=
  ∀ {l : Ledger} {f : Node → Node}, l.Settles (l.node n) (f (l.node n)) → R l (l.modifyNode n f)

/-- A relation that allows for such work as long as nothing else changes about the node. -/
def AllowsCalmWork (R : Ledger → Ledger → Prop) (n : NodeRef) : Prop :=
  ∀ {l : Ledger} {f : Node → Node}, l.Settles (l.node n) (f (l.node n)) →
    (f (l.node n)).alive = (l.node n).alive →
    (f (l.node n)).stats.lastUpdate = (l.node n).stats.lastUpdate → R l (l.modifyNode n f)

/-- A relation that allows for hearing from a node. -/
def AllowsHearing (R : Ledger → Ledger → Prop) (n : NodeRef) : Prop :=
  ∀ {l : Ledger} {f : Node → Node}, (l.node n).Idle (f (l.node n)) →
    (f (l.node n)).alive = (l.node n).alive → R l (l.modifyNode n f)

/-- A relation that allows for a node of a coordinator to be declared dead or alive, which leaves counters alone. -/
structure AllowsLife (R : Ledger → Ledger → Prop) (c : CoordinatorRef) (n : NodeRef) : Prop where
  node : ∀ {l : Ledger} {f : Node → Node}, (l.node n).Idle (f (l.node n)) → R l (l.modifyNode n f)
  metrics : ∀ (l : Ledger) {f : Metrics → Metrics}, (∀ m counter, (f m).counter counter = m.counter counter) →
    R l (l.modifyCoordinator c fun k => { k with metrics := f k.metrics })

variable {α : Type} {R : Ledger → Ledger → Prop}

theorem AllowsWork.calm {n : NodeRef} (h : AllowsWork R n) : AllowsCalmWork R n := fun hf _ _ => h hf

theorem AllowsLife.hearing {c : CoordinatorRef} {n : NodeRef} (h : AllowsLife R c n) : AllowsHearing R n :=
  fun hf _ => h.node hf

/-- Where the state of a lock does not matter, it does not matter either what is done under the lock. -/
theorem guarded_of_modifyLock [IsPreorder Ledger R] (h : ∀ (l : Ledger) r f, R l (l.modifyLock r f))
    {l l' : Ledger} {r : LockRef} {f g : NamespaceLock → NamespaceLock} (h' : R (l.modifyLock r g) l') :
    R l (l'.modifyLock r f) :=
  trans_of R (h l r g) (trans_of R h' (h l' r f))

section frame
variable [Frame R]

/-- A coordinator may get nodes that it has already, or that keep no volumes. -/
theorem Frame.coordinator {l : Ledger} {c : CoordinatorRef} {f : Coordinator → Coordinator}
    (hlimits : (f (l.coordinator c)).limits = (l.coordinator c).limits)
    (hlock : (f (l.coordinator c)).lock = (l.coordinator c).lock)
    (h : ∀ n ∈ (f (l.coordinator c)).nodes.values, n ∈ (l.coordinator c).nodes.values ∨ l.Vacant n) :
    R l (l.modifyCoordinator c f) := by
  refine Frame.hands rfl rfl rfl rfl (Ledger.keepsTerms_modifyCoordinator hlimits hlock) fun n hn => ?_
  rcases Ledger.mem_heldNodes_modifyCoordinator hn with hn | ⟨hc, hn⟩
  · exact .inl hn
  · exact (h n hn).imp_left fun hn => Ledger.mem_heldNodes.2 (.inr ⟨_, hc, hn⟩)

instance : Still R where
  node h := Frame.node h.toIdle
  storage := Frame.storage
  counter _ _ _ _ := Frame.coordinator rfl rfl fun _ hn => .inl hn
  guarded h _ :=
    guarded_of_modifyLock (fun _ _ _ => Frame.hands rfl rfl rfl rfl (.of_eq rfl) fun _ hn => .inl hn) h
  announce := Frame.announce

theorem Frame.life (c : CoordinatorRef) (n : NodeRef) : AllowsLife R c n :=
  ⟨Frame.node, fun _ _ _ => Frame.coordinator rfl rfl fun _ hn => .inl hn⟩

/-- A frame allows for a node of the registry to be held by someone else instead. -/
theorem Frame.forget {l : Ledger} {c : CoordinatorRef} {uuid : String} {n : NodeRef}
    (hn : (l.coordinator c).nodes.find? uuid = some n) : R l (l.forget c uuid n) := by
  have hpin : l.KeepsTerms (l.pin n) := .of_eq rfl
  have hterms : (l.pin n).KeepsTerms (l.forget c uuid n) := Ledger.keepsTerms_modifyCoordinator rfl rfl
  exact Frame.hands rfl rfl rfl rfl (hpin.trans hterms) fun _ hm => .inl (Ledger.mem_heldNodes_of_forget hn hm)

theorem Frame.unpin (l : Ledger) (n : NodeRef) : R l (l.unpin n) :=
  Frame.hands rfl rfl rfl rfl (.of_eq rfl) fun _ hm => .inl (Ledger.mem_heldNodes_unpin hm)

theorem idle_modifyMetrics (c : CoordinatorRef) (f : Metrics → Metrics) : Respects R (modifyMetrics c f) :=
  .modifyLedger fun _ => Frame.coordinator rfl rfl fun _ hn => .inl hn

end frame

section node
variable [Reserved R] (n : NodeRef)

theorem aside_modifyNode {f : Node → Node} (h : ∀ node : Node, node.Aside (f node)) :
    Respects R (modifyNode n f) :=
  .modifyLedger fun _ => Reserved.aside (h _)

omit [Reserved R] in
theorem calm_modifyNode [Composed R] {f : Node → Node} (h : ∀ node : Node, node.Calm (f node)) :
    Respects R (modifyNode n f) :=
  .modifyLedger fun _ => Composed.node (h _)

omit [Reserved R] in
theorem calm_takeFrom [Composed R] {f : Node → α × Node} (h : ∀ node : Node, node.Calm (f node).2) :
    Respects R (takeFrom n f) :=
  .takeFrom fun _ => Composed.node (h _)

/-- The first guard that a node meets ties it to a lock; no other changes it. -/
theorem idle_check (g : Guard) : Respects R (check n g) := by
  intro s
  unfold check
  rw [exec_bind_ok (exec_node ..)]
  cases hlock : (s.ledger.node n).lock with
  | none =>
    refine Reserved.aside ⟨⟨⟨rfl, rfl, rfl, rfl, fun r hr => ?_⟩, rfl, rfl⟩, rfl⟩
    rw [hlock] at hr
    cases hr
  | some bound =>
    simp only
    split
    · exact refl_of R s.ledger
    · exact refl_of R s.ledger

theorem idle_bind (r : LockRef) : Respects R (Request.bind n r) := by
  intro s
  unfold Request.bind
  rw [exec_bind_ok (exec_node ..)]
  cases hlock : (s.ledger.node n).lock with
  | none =>
    refine Reserved.aside ⟨⟨⟨rfl, rfl, rfl, rfl, fun r hr => ?_⟩, rfl, rfl⟩, rfl⟩
    rw [hlock] at hr
    cases hr
  | some bound =>
    simp only
    split
    · exact refl_of R s.ledger
    · exact refl_of R s.ledger

theorem aside_modifyStorages {f : Storage → Storage} (h : ∀ storage : Storage, storage.Aside (f storage)) :
    Respects R (modifyStorages n f) := by
  refine .modifyLedger fun l => ?_
  generalize (l.node n).storages.values = vs
  induction vs generalizing l with
  | nil => exact refl_of R l
  | cons v vs ih => exact trans_of R (Reserved.volume (h _)) (ih _)

theorem idle_updateRegistration (r : Registration) : Respects R (updateRegistration n r) := by
  have hrest : Respects R (do
      modifyNode n fun node => node.readdress r
      modifyStorages n fun storage => { storage with blockReports := 0 }) :=
    .bind (aside_modifyNode n fun _ => Node.aside_of_eq rfl rfl rfl rfl rfl) fun _ =>
      aside_modifyStorages n fun _ => Storage.aside_of_eq rfl rfl rfl rfl rfl rfl
  unfold updateRegistration
  refine .bind (.node n) fun node => ?_
  split
  · exact .bind (.throw _) fun _ => hrest
  · exact hrest

theorem idle_receiveBlockReport (v : StorageRef) : Respects R (receiveBlockReport v) := by
  intro s
  unfold receiveBlockReport
  rw [exec_bind, exec_look]
  simp only [Storage.receiveBlockReport]
  cases Word.add32 (s.ledger.storage v).blockReports 1 with
  | error e => exact refl_of R s.ledger
  | ok count => exact Reserved.volume (Storage.aside_of_eq rfl rfl rfl rfl rfl rfl)

omit [Reserved R] in
theorem idle_addInvalidations [Composed R] (bs : List Block) : Respects R (addInvalidations n bs) := by
  intro s
  unfold addInvalidations
  rw [exec_bind_ok (exec_node ..)]
  cases h : (s.ledger.node n).addInvalidations bs with
  | error e => exact refl_of R s.ledger
  | ok p =>
    unfold Node.addInvalidations at h
    split at h
    · cases h
    · cases h
      exact Composed.node (Node.calm_of_eq rfl rfl rfl rfl rfl rfl rfl)

theorem idle_cache (g : Guard) (f : CacheLists → Except Fault (α × CacheLists)) :
    Respects R (cache g n f) := by
  unfold cache
  refine .bind (idle_check n g) fun _ => .attempt fun l a l' h => ?_
  cases hf : f (l.node n).cache with
  | error e =>
    rw [hf] at h
    cases h
  | ok p =>
    rw [hf] at h
    cases h
    exact Reserved.aside (Node.aside_of_eq rfl rfl rfl rfl rfl)

omit [Reserved R] in
theorem idle_resetBlocks [Composed R] (g : Guard) : Respects R (resetBlocks g n) :=
  .bind (calm_modifyNode n fun _ => Node.calm_of_eq rfl rfl rfl rfl rfl rfl rfl) fun _ => idle_cache n g _

omit [Reserved R] in
theorem idle_receiveReport [Discreet R] (now : UInt64) (sums : NodeStats × Nat) (r : StorageReport) :
    Respects R (receiveReport n now sums r) := by
  unfold receiveReport
  refine .bind .ledger fun l => ?_
  split
  · exact .bind (.modifyLedger fun _ => Discreet.storage ⟨rfl, rfl, rfl⟩) fun _ => .pure _
  · exact .bind (.node n) fun _ => .bind (.record _) fun _ => .pure _

omit [Reserved R] in
/-- A heartbeat sets when the node was last heard of. -/
theorem respects_updateHeartbeat [Discreet R] {n : NodeRef} (hhear : AllowsHearing R n) (h : Heartbeat) :
    Respects R (updateHeartbeat n h) := by
  unfold updateHeartbeat
  refine .bind .ledger fun l => ?_
  refine .bind (aside_modifyNode n fun _ => Node.aside_of_eq rfl rfl rfl rfl rfl) fun _ => ?_
  refine .bind (.foldlM (fun sums r _ => idle_receiveReport n _ sums r) _) fun sums => ?_
  exact .bind (.modifyLedger fun _ => hhear (Node.idle_of_eq rfl rfl rfl rfl rfl) rfl) fun _ => .pure _

omit [Reserved R] in
/-- A known volume changes its state, and one that is not known is new. -/
theorem idle_updateStorage [Discreet R] (a : Announcement) : Respects R (updateStorage n a) := by
  intro s
  unfold updateStorage
  rw [exec_bind_ok (exec_ledger _)]
  simp only
  cases h : s.ledger.storageOf? n a.id with
  | some v => exact Discreet.storage ⟨rfl, rfl, rfl⟩
  | none => exact Discreet.announce h

end node

section coordinator
variable [Reserved R] (c : CoordinatorRef) (n : NodeRef)

omit [Reserved R] in
theorem idle_dispatched [Counting R] (counter : Counter) (count : Nat) : Respects R (dispatched c counter count) :=
  .modifyLedger fun l => Counting.counter l c counter _

omit [Reserved R] in
theorem idle_count [Counting R] (counter : Counter) (count : UInt64) :
    Respects R (modifyMetrics c fun m => m.add counter count) :=
  .modifyLedger fun l => Counting.counter l c counter count

theorem idle_coordinator : Respects R (coordinator c) := .bind .ledger fun _ => .pure _

theorem idle_registered? (uuid : String) : Respects R (registered? c uuid) :=
  .bind (idle_coordinator c) fun _ => .pure _

/-- Whatever comes of the part of a request that runs under a lock, the lock is given back. -/
theorem idle_withLock {r : LockRef} {body : Guard → Request α} (h : ∀ g, Respects R (body g)) :
    Respects R (withLock r body) := by
  intro s
  obtain ⟨journal, he⟩ := exec_withLock s r body
  rw [he]
  have hbody := h ⟨r⟩ ⟨s.ledger.modifyLock r fun lock => { lock with held := true }, journal⟩
  rcases hend : (body ⟨r⟩).exec _ with ⟨e | a, s'⟩
  · rw [hend] at hbody
    exact Reserved.guarded hbody fun _ => rfl
  · rw [hend] at hbody
    exact Reserved.guarded hbody fun _ => rfl

omit [Reserved R] in
theorem idle_registerAgain [Composed R] (r : Registration) : Respects R <| readmit c n r := by
  refine .bind (.record _) fun _ => .bind (idle_updateRegistration n r) fun _ => ?_
  exact .bind (idle_coordinator c) fun k => idle_withLock fun g => idle_resetBlocks n g

omit [Reserved R] in
theorem idle_modifyAll [Composed R] {f : Node → Node} (h : ∀ node : Node, node.Calm (f node)) :
    Respects R (modifyAll c f) :=
  .bind (idle_coordinator c) fun _ => .forM fun n _ => calm_modifyNode n h

omit [Reserved R] in
theorem idle_setBandwidth [Composed R] (bandwidth : UInt64) : Respects R (setBandwidth c bandwidth) :=
  idle_modifyAll c fun _ => Node.calm_of_eq rfl rfl rfl rfl rfl rfl rfl

omit [Reserved R] in
theorem idle_requestKeyUpdate [Composed R] : Respects R (requestKeyUpdate c) :=
  idle_modifyAll c fun _ => Node.calm_of_eq rfl rfl rfl rfl rfl rfl rfl

end coordinator

section life
variable {c : CoordinatorRef} {n : NodeRef}

theorem respects_markAlive [IsPreorder Ledger R] (hlife : AllowsLife R c n) : Respects R (markAlive c n) := by
  unfold markAlive
  refine .bind (.node n) fun node => ?_
  split
  · exact .pure _
  · refine .bind (.modifyLedger fun _ => hlife.node (Node.idle_of_eq rfl rfl rfl rfl rfl)) fun _ => ?_
    exact .modifyLedger fun l => hlife.metrics l (Metrics.counter_raise · .liveDatanodes)

theorem respects_markDead [IsPreorder Ledger R] (hlife : AllowsLife R c n) : Respects R (markDead c n) := by
  unfold markDead
  refine .bind (.node n) fun node => ?_
  split
  · refine .bind (.modifyLedger fun _ => hlife.node (Node.idle_of_eq rfl rfl rfl rfl rfl)) fun _ => ?_
    exact .modifyLedger fun l => hlife.metrics l (Metrics.counter_lower · .liveDatanodes)
  · exact .pure _

theorem respects_checkHeartbeats [Reserved R] (hlife : ∀ n, AllowsLife R c n) (now : UInt64) :
    Respects R (checkHeartbeats c now) := by
  refine .bind (idle_coordinator c) fun _ => .foldlM (fun dead n _ => ?_) _
  unfold checkNode
  refine .bind (.node n) fun node => ?_
  split
  · exact .pure _
  · refine .bind (idle_coordinator c) fun k => ?_
    refine .bind (.lift _) fun expiry => ?_
    split
    · exact .pure _
    · exact .bind (.record _) fun _ => .bind (respects_markDead (hlife n)) fun _ => .pure _

/-- All that follows the entry of a node, or its return, is announcements and life. -/
theorem respects_register [Serene R] (hlife : ∀ n, AllowsLife R c n) {r : Registration}
    (henroll : Respects R (enroll c r)) (storages : List Announcement) : Respects R (register c r storages) := by
  have hrest : ∀ n, Respects R (do
      storages.forM fun a => do
        let _ ← updateStorage n a
      let now := (← ledger).now
      modifyNode n fun node => node.setLastUpdate now
      markAlive c n
      pure n) := by
    intro n
    refine .bind (.forM fun a _ => .bind (idle_updateStorage n a) fun _ => .pure _) fun _ => ?_
    refine .bind .ledger fun l => ?_
    refine .bind (.modifyLedger fun _ => (hlife n).node (Node.idle_of_eq rfl rfl rfl rfl rfl)) fun _ => ?_
    exact .bind (respects_markAlive (hlife n)) fun _ => .pure _
  unfold register
  refine .bind (idle_registered? c r.uuid) fun known => ?_
  cases known with
  | none => exact .bind henroll fun n => hrest n
  | some n => exact .bind (idle_registerAgain c n r) fun _ => hrest n

end life

section enroll
variable (c : CoordinatorRef)

/-- A node that is entered is new, and tied to the lock of its coordinator. -/
theorem exec_enroll (r : Registration) (s : Service) :
    (enroll c r).exec s = (.ok ⟨s.ledger.nodes.size⟩, {
      ledger := (((s.ledger.addNode (Node.ofRegistration r)).2.modifyNode ⟨s.ledger.nodes.size⟩ fun node =>
          { node with lock := some (s.ledger.coordinator c).lock }).modifyCoordinator c fun k =>
          { k with nodes := k.nodes.insert r.uuid ⟨s.ledger.nodes.size⟩ }).modifyCoordinator c fun k =>
          { k with metrics := k.metrics.raise .registeredDatanodes }
      journal := .registered r.address r.uuid :: s.journal }) := by
  have hnew : (s.ledger.addNode (Node.ofRegistration r)).2.node ⟨s.ledger.nodes.size⟩ =
      Node.ofRegistration r := Ledger.node_addNode_self s.ledger _
  have hbind : (Request.bind ⟨s.ledger.nodes.size⟩ (s.ledger.coordinator c).lock).exec
      { s with ledger := (s.ledger.addNode (Node.ofRegistration r)).2 } = (.ok ⟨⟩, { s with
        ledger := (s.ledger.addNode (Node.ofRegistration r)).2.modifyNode ⟨s.ledger.nodes.size⟩ fun node =>
          { node with lock := some (s.ledger.coordinator c).lock } }) := by
    unfold Request.bind
    rw [exec_bind_ok (exec_node ..)]
    simp only [hnew]
    rfl
  unfold enroll
  rw [exec_bind_ok (exec_make ..)]
  rw [exec_bind_ok (exec_coordinator ..)]
  simp only
  rw [exec_bind]
  have hcoordinator : (s.ledger.addNode (Node.ofRegistration r)).2.coordinator c = s.ledger.coordinator c := rfl
  rw [hcoordinator]
  have href : (s.ledger.addNode (Node.ofRegistration r)).1 = ⟨s.ledger.nodes.size⟩ := rfl
  rw [href, hbind]
  rfl

/-- A node that is entered keeps nothing yet. -/
theorem idle_enroll [Frame R] (r : Registration) : Respects R (enroll c r) := by
  intro s
  rw [exec_enroll]
  let n : NodeRef := ⟨s.ledger.nodes.size⟩
  let lock := (s.ledger.coordinator c).lock
  let l₁ := (s.ledger.addNode (Node.ofRegistration r)).2
  let l₂ := l₁.modifyNode n fun node => { node with lock := some lock }
  let l₃ := l₂.modifyCoordinator c fun k => { k with nodes := k.nodes.insert r.uuid n }
  have hnew : R s.ledger l₁ := Frame.newNode s.ledger r (Node.ofRegistration r).location
  have hbound : R l₁ l₂ := by
    refine Frame.node ⟨rfl, rfl, rfl, rfl, fun other hother => ?_⟩
    rw [Ledger.node_addNode_self] at hother
    cases hother
  have hvacant : l₂.Vacant n := by
    have halike : l₁.Alike l₂ := Ledger.alike_lock n (some lock)
    refine ⟨?_, fun v => (halike.keeps n v).trans (Ledger.keeps_new s.ledger rfl rfl)⟩
    refine Nat.lt_of_lt_of_eq ?_ Array.size_modify.symm
    rw [Ledger.size_addNode]
    exact Nat.lt_succ_self _
  have hentered : R l₂ l₃ := by
    refine Frame.coordinator rfl rfl fun m hm => ?_
    rcases Table.mem_values_insert hm with hm | rfl
    · exact .inl hm
    · exact .inr hvacant
  have hcounted : R l₃ (l₃.modifyCoordinator c fun k =>
      { k with metrics := k.metrics.raise .registeredDatanodes }) := Frame.coordinator rfl rfl fun _ hm => .inl hm
  exact trans_of R hnew (trans_of R hbound (trans_of R hentered hcounted))

end enroll

section work
variable [Reserved R] {n : NodeRef} (hwork : AllowsCalmWork R n)
include hwork

theorem respects_clearQueues (g : Guard) : Respects R (clearQueues g n) :=
  .bind (.modifyLedger fun _ =>
      hwork ⟨rfl, rfl, rfl, fun _ ht => (List.not_mem_nil ht).elim⟩ rfl rfl) fun _ => idle_cache n g _

theorem respects_addRecovery (b : OpenRef) : Respects R (addRecovery n b) := by
  unfold addRecovery
  refine .bind .ledger fun l => ?_
  simp only
  split
  · exact .bind (.modifyLedger fun _ => hwork ⟨rfl, rfl, rfl, fun _ ht => .inl ht⟩ rfl rfl) fun _ => .pure _
  · exact .bind (.record _) fun _ => .pure _

/-- A queued transfer keeps its targets, which whoever queues it has to have. -/
theorem respects_addTransfer {s : Service} (b : Block) {targets : List StorageRef}
    (h : ∀ t ∈ targets, s.ledger.isLive t = true) : R s.ledger ((addTransfer n b targets).exec s).2.ledger := by
  unfold addTransfer Transfer.make
  cases targets with
  | nil => exact refl_of R s.ledger
  | cons t targets =>
    let transfer : Transfer := { block := b, targets := t :: targets }
    refine hwork (f := fun node => node.addTransfer transfer) ⟨rfl, rfl, rfl, fun u hu => ?_⟩ rfl rfl
    rcases List.mem_append.1 hu with hu | hu
    · exact .inl hu
    · rw [List.mem_singleton.1 hu]
      exact .inr ⟨List.cons_ne_nil t targets, h⟩

omit [Reserved R] in
/-- The answer to a heartbeat takes from the queues of the node, and is idle apart from that. -/
theorem respects_commands [Still R] (c : CoordinatorRef) : Respects R (commands c n) := by
  have hflags : ∀ answer : Option UInt64 → Bool → List Command, Respects R (do
      let bandwidth ← takeFrom n Node.takeBandwidth
      let keyUpdate ← takeFrom n Node.takeKeyUpdate
      pure (answer bandwidth keyUpdate)) := by
    intro answer
    refine .bind (calm_takeFrom n fun _ => Node.calm_of_eq rfl rfl rfl rfl rfl rfl rfl) fun _ => ?_
    exact .bind (calm_takeFrom n fun _ => Node.calm_of_eq rfl rfl rfl rfl rfl rfl rfl) fun _ => .pure _
  have hdrain : ∀ max, Respects R (takeFrom n fun node => node.drainInvalidations max) :=
    fun max => calm_takeFrom n fun _ => Node.calm_of_eq rfl rfl rfl rfl rfl rfl rfl
  -- what a poll leaves queued was queued before
  have hpoll : ∀ max, Respects R (takeFrom n fun node => node.pollTransfers max) := by
    refine fun max => .takeFrom fun l => hwork ⟨rfl, rfl, rfl, fun t ht => .inl ?_⟩ rfl rfl
    rw [← (l.node n).transfers.poll_append max]
    exact List.mem_append_right _ ht
  unfold commands
  refine .bind .ledger fun l => ?_
  refine .bind (.takeFrom fun l => hwork ⟨rfl, rfl, rfl, fun _ ht => .inl ht⟩ rfl rfl) fun recoveries => ?_
  cases recoveries with
  | some blocks => exact .bind (idle_dispatched c _ _) fun _ => .pure _
  | none =>
    refine .bind (hpoll _) fun transfers => ?_
    simp only
    split
    · refine .bind (idle_dispatched c _ _) fun _ => .bind (hdrain _) fun blocks => ?_
      split
      · exact .bind (idle_dispatched c _ _) fun _ => hflags _
      · exact hflags _
    · refine .bind (hdrain _) fun blocks => ?_
      split
      · exact .bind (idle_dispatched c _ _) fun _ => hflags _
      · exact hflags _

omit [Reserved R] hwork in
theorem respects_heartbeat [Still R] {s : Service} (c : CoordinatorRef) (uuid : String) (h : Heartbeat)
    (hwork : ∀ n, (s.ledger.coordinator c).nodes.find? uuid = some n → AllowsCalmWork R n)
    (hhear : ∀ n, (s.ledger.coordinator c).nodes.find? uuid = some n → AllowsHearing R n) :
    R s.ledger ((heartbeat c uuid h).exec s).2.ledger := by
  unfold heartbeat
  rw [exec_bind_ok (exec_ledger _)]
  cases hn : (s.ledger.coordinator c).nodes.find? uuid with
  | none => exact (Respects.bind (idle_count c _ _) fun _ => .pure _ : Respects R _) s
  | some n =>
    have hrest : Respects R (do
        let unknown ← updateHeartbeat n h
        modifyMetrics c fun m => m.add .unknownStorageReports (UInt64.ofNat unknown)
        pure (.ok (← commands c n) : Except Error (List Command))) := by
      refine .bind (respects_updateHeartbeat (hhear n hn) h) fun unknown => .bind (idle_count c _ _) fun _ => ?_
      exact .bind (respects_commands (hwork n hn) c) fun _ => .pure _
    simp only
    rw [exec_bind_ok (exec_node ..)]
    split
    · exact (Respects.bind (idle_count c _ _) fun _ => .bind (.record _) fun _ => .pure _ : Respects R _) s
    · split
      · exact (Respects.bind (idle_count c _ _) fun _ => .pure _ : Respects R _) s
      · exact (Respects.bind (idle_count c _ _) fun _ => hrest : Respects R _) s

omit [Reserved R] hwork in
theorem respects_addRecoveryOn [Counting R] {s : Service} (c : CoordinatorRef) (uuid : String) (b : OpenRef)
    (hwork : ∀ n, (s.ledger.coordinator c).nodes.find? uuid = some n → AllowsCalmWork R n) :
    R s.ledger ((addRecoveryOn c uuid b).exec s).2.ledger := by
  unfold addRecoveryOn
  rw [exec_bind_ok (exec_registered? ..)]
  simp only
  cases hn : (s.ledger.coordinator c).nodes.find? uuid with
  | none => exact refl_of R s.ledger
  | some n =>
    refine (Respects.bind (respects_addRecovery (hwork n hn) b) fun added => ?_ : Respects R _) s
    split
    · exact .pure _
    · exact .bind (idle_count c _ _) fun _ => .pure _

end work

/-- A cursor that advances changes nothing but itself. -/
theorem respects_advance [IsPreorder Ledger R] (hcursors : ∀ (l : Ledger) cursors, R l { l with cursors })
    (r : CursorRef) : Respects R (advance r) := by
  unfold advance
  refine .bind .ledger fun l => ?_
  split
  · exact .pure _
  · exact .bind (.look _) fun _ => .bind (.modifyLedger fun l => hcursors l _) fun _ => .pure _

section cursor
variable [Frame R] {s : Service}

theorem idle_openCursor {v : StorageRef} (h : s.ledger.isLive v = true) :
    R s.ledger ((openCursor v).exec s).2.ledger := by
  refine Frame.cursors fun c hc => ?_
  rw [Array.toList_push] at hc
  rcases List.mem_append.1 hc with hc | hc
  · exact .inl hc
  · cases List.mem_singleton.1 hc
    exact .inr h

private theorem mem_setIfInBounds {xs : Array α} {i : Nat} {a x : α}
    (h : x ∈ (xs.setIfInBounds i a).toList) : x ∈ xs.toList ∨ x = a := by
  rw [Array.toList_setIfInBounds] at h
  exact List.mem_or_eq_of_mem_set h

theorem idle_closeCursor (r : CursorRef) : Respects R (closeCursor r) := by
  refine .modifyLedger fun l => Frame.cursors fun c hc => ?_
  rcases mem_setIfInBounds hc with hc | hc
  · exact .inl hc
  · cases hc

/-- A cursor never leaves its volume. -/
theorem storage_next {l : Ledger} {c c' : Cursor} {b : Option BlockRef} (h : c.next l = .ok (b, c')) :
    c'.storage = c.storage := by
  unfold Cursor.next at h
  cases hp : c.position with
  | start =>
    rw [hp] at h
    cases hhead : (l.storage c.storage).blocks.head Storage.blockList with
    | error e =>
      simp only [hhead] at h
      cases h
    | ok slot =>
      simp only [hhead] at h
      simp only [Bind.bind, Except.bind] at h
      split at h <;> cases h <;> rfl
  | slot slot =>
    rw [hp] at h
    simp only [pure_bind] at h
    split at h <;> cases h <;> rfl
  | done =>
    rw [hp] at h
    simp only [pure_bind] at h
    split at h <;> cases h <;> rfl

theorem idle_advance (r : CursorRef) : Respects R (advance r) := by
  intro s
  unfold advance
  rw [exec_bind_ok (exec_ledger _)]
  simp only
  cases hc : s.ledger.cursor? r with
  | none => exact refl_of R s.ledger
  | some c =>
    simp only
    rw [exec_bind, exec_look]
    cases hnext : c.next s.ledger with
    | error e => exact refl_of R s.ledger
    | ok p =>
      refine Frame.cursors fun d hd => ?_
      rcases mem_setIfInBounds hd with hd | hd
      · exact .inl hd
      · -- the volume was open already, so it is live
        cases hd
        have hr : s.ledger.cursors[r.index]? = some (some c) := Option.join_eq_some_iff.1 hc
        have hmem : some c ∈ s.ledger.cursors.toList := Array.mem_toList_iff.2 (Array.mem_of_getElem? hr)
        exact .inr (Ledger.isLive_iff.2 (.inr ⟨some c, hmem, beq_iff_eq.2 (storage_next hnext).symm⟩))

end cursor

section rewrite
variable [IsPreorder Ledger R] (hrewrite : ∀ (l : Ledger) v b blocks holders, R l (l.rewrite v b blocks holders))
include hrewrite

/-- Whoever allows for any list and any back-references allows for an attachment, -/
theorem rel_attach (l : Ledger) (v : StorageRef) (b : BlockRef) (added : Bool) (l' : Ledger)
    (h : l.attach v b = .ok (added, l')) : R l l' := by
  rcases Ledger.attach_cases h with ⟨-, rfl⟩ | ⟨-, -, blocks, -, rfl⟩
  · exact refl_of R l'
  · exact hrewrite l v b blocks _

/-- and for a detachment. -/
theorem rel_detach (l : Ledger) (v : StorageRef) (b : BlockRef) (removed : Bool) (l' : Ledger)
    (h : l.detach v b = .ok (removed, l')) : R l l' := by
  rcases Ledger.detach_cases h with ⟨-, rfl⟩ | ⟨-, -, blocks, -, rfl⟩
  · exact refl_of R l'
  · exact hrewrite l v b blocks _

end rewrite

section blocks
variable [Reserved R] (hattach : ∀ (l : Ledger) v b added l', l.attach v b = .ok (added, l') → R l l')
  (hdetach : ∀ (l : Ledger) v b removed l', l.detach v b = .ok (removed, l') → R l l')

include hdetach in
theorem respects_removeBlock (g : Guard) (n : NodeRef) (b : BlockRef) : Respects R (removeBlock g n b) := by
  unfold removeBlock
  refine .bind (idle_check n g) fun _ => .bind .ledger fun l => ?_
  split
  · exact .attempt fun l removed l' h => hdetach l _ _ removed l' h
  · exact .pure _

include hdetach in
theorem respects_removeBlockFrom (g : Guard) (n : NodeRef) (id : String) (b : BlockRef) :
    Respects R (removeBlockFrom g n id b) := by
  unfold removeBlockFrom
  refine .bind (idle_check n g) fun _ => .bind .ledger fun l => ?_
  split
  · exact .attempt fun l removed l' h => hdetach l _ _ removed l' h
  · exact .pure _

include hdetach in
theorem respects_removeAllBlocks (g : Guard) (n : NodeRef) : Respects R (removeAllBlocks g n) := by
  unfold removeAllBlocks walkBlocks
  refine .bind (.bind (idle_check n g) fun _ => .bind (.node n) fun _ => .pure _) fun w => ?_
  refine .bind (.look _) fun blocks => .foldlM (fun count b _ => ?_) 0
  refine .bind (respects_removeBlock hdetach g n b) fun removed => ?_
  split
  · exact .pure _
  · exact .pure _

include hattach hdetach in
theorem respects_addBlock (g : Guard) (n : NodeRef) (id : String) (b : BlockRef) :
    Respects R (addBlock g n id b) := by
  have hatt : ∀ v, Respects R (attempt fun l => l.attach v b) :=
    fun v => .attempt fun l added l' h => hattach l v b added l' h
  unfold addBlock
  refine .bind (idle_check n g) fun _ => .bind .ledger fun l => ?_
  split
  · exact .pure _
  · split
    · exact hatt _
    · split
      · exact .pure _
      · refine .bind (.record _) fun _ => .bind (.attempt fun l removed l' h => ?_) fun _ => hatt _
        exact hdetach l _ b removed l' h

include hattach hdetach in
theorem respects_replaceBlock (g : Guard) (n : NodeRef) (old new : BlockRef) :
    Respects R (replaceBlock g n old new) := by
  unfold replaceBlock
  refine .bind (idle_check n g) fun _ => .bind .ledger fun l => ?_
  simp only
  split
  · exact .throw _
  · have hplace : ∀ v e, Respects R (do
        unless ← attempt fun l => l.attach v new do throw e
        pure new) := by
      intro v e
      refine .bind (.attempt fun l added l' h => hattach l v new added l' h) fun added => ?_
      split
      · exact .pure _
      · exact .throw _
    refine .bind (.attempt fun l removed l' h => hdetach l _ old removed l' h) fun removed => ?_
    split
    · exact hplace _ _
    · exact .throw _

include hattach hdetach in
theorem respects_addReportedBlock (c : CoordinatorRef) (uuid id : String) (b : BlockRef) :
    Respects R (addReportedBlock c uuid id b) := by
  unfold addReportedBlock
  refine .bind (idle_registered? c uuid) fun known => ?_
  cases known with
  | none => exact .pure _
  | some n =>
    refine .bind .ledger fun l => ?_
    split
    · exact .pure _
    · refine .bind (idle_coordinator c) fun k => ?_
      exact .bind (idle_withLock fun g => respects_addBlock hattach hdetach g n id b) fun _ => .pure _

include hdetach in
theorem respects_purge (c : CoordinatorRef) (n : NodeRef) (hwork : AllowsCalmWork R n) :
    Respects R (purge c n) := by
  refine .bind (idle_coordinator c) fun k => idle_withLock fun g => ?_
  refine .bind (respects_removeAllBlocks hdetach g n) fun _ => ?_
  exact .bind (respects_clearQueues hwork g) fun _ => .pure _

include hdetach in
theorem respects_removeNode {s : Service} (c : CoordinatorRef) (uuid : String)
    (hwork : ∀ n, (s.ledger.coordinator c).nodes.find? uuid = some n → AllowsCalmWork R n)
    (hforget : ∀ n, (s.ledger.coordinator c).nodes.find? uuid = some n → R s.ledger (s.ledger.forget c uuid n))
    (hunpin : ∀ (l : Ledger) n, R l (l.unpin n)) (hlife : ∀ n, AllowsLife R c n) :
    R s.ledger ((removeNode c uuid).exec s).2.ledger := by
  cases hn : (s.ledger.coordinator c).nodes.find? uuid with
  | none =>
    rw [exec_removeNode_of_none hn]
    exact refl_of R s.ledger
  | some n =>
    have hrest : Respects R (do
        let replicas ← purge c n
        markDead c n
        modifyMetrics c fun m => m.lower .registeredDatanodes
        record (.removed (← node n).shown replicas)
        pure (some n)) := by
      refine .bind (respects_purge hdetach c n (hwork n hn)) fun _ => .bind (respects_markDead (hlife n)) fun _ => ?_
      exact .bind (.modifyLedger fun l => (hlife n).metrics l (Metrics.counter_lower · .registeredDatanodes)) fun _ =>
        .bind (.node n) fun _ => .bind (.record _) fun _ => .pure _
    rw [exec_removeNode_of_registered hn]
    exact trans_of R (trans_of R (hforget n hn) (hrest ⟨s.ledger.forget c uuid n, s.journal⟩)) (hunpin _ n)

end blocks

/-- A relation that allows for any work. -/
class WorkFrame (R : Ledger → Ledger → Prop) : Prop extends Frame R where
  work : ∀ n, AllowsWork R n

end Request
end DatanodeLedger
