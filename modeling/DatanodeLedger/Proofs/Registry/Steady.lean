import DatanodeLedger.Proofs.Run.Frame

/-! Most steps leave the registries as they are, and change neither which nodes are alive nor when they were
last heard of. -/
namespace DatanodeLedger

/-- A change of a node that leaves alone who it is, whether it is alive and when it was last heard of. A node
that is tied to a lock stays tied to it. -/
structure Node.Steady (node node' : Node) : Prop where
  uuid : node'.uuid = node.uuid
  alive : node'.alive = node.alive
  lastUpdate : node'.stats.lastUpdate = node.stats.lastUpdate
  lock : ∀ r, node.lock = some r → node'.lock = some r

theorem Node.steady_of_eq {node node' : Node} (uuid : node'.uuid = node.uuid) (alive : node'.alive = node.alive)
    (lastUpdate : node'.stats.lastUpdate = node.stats.lastUpdate) (lock : node'.lock = node.lock) :
    node.Steady node' :=
  ⟨uuid, alive, lastUpdate, fun _ h => lock.trans h⟩

theorem Metrics.gauge_add (m : Metrics) (c : Counter) (n : UInt64) (g : Gauge) : (m.add c n).gauge g = m.gauge g := by
  cases c <;> cases g <;> rfl

theorem Metrics.underflows_add (m : Metrics) (c : Counter) (n : UInt64) : (m.add c n).underflows = m.underflows := by
  cases c <;> rfl

namespace Request

/-- A relation between ledgers that looks at nodes, coordinators and locks only. -/
class Slim (R : Ledger → Ledger → Prop) : Prop extends IsPreorder Ledger R where
  unseen : ∀ {l l' : Ledger}, l'.nodes = l.nodes → l'.coordinators = l.coordinators →
    (∀ r, l'.lock r = l.lock r) → R l l'
  node : ∀ {l : Ledger} {n : NodeRef} {f : Node → Node},
    (l.node n).Steady (f (l.node n)) → R l (l.modifyNode n f)
  newNode : ∀ (l : Ledger) (r : Registration) (location : String),
    R l (l.addNode { Node.ofRegistration r with location }).2
  guarded : ∀ {l l' : Ledger} {r : LockRef} {f : NamespaceLock → NamespaceLock},
    R (l.modifyLock r fun lock => { lock with held := true }) l' → (∀ lock, (f lock).held = false) →
      R l (l'.modifyLock r f)

/-- One that does not look at counters. -/
class Narrow (R : Ledger → Ledger → Prop) : Prop extends Slim R where
  counter : ∀ (l : Ledger) (c : CoordinatorRef) (counter : Counter) (count : UInt64),
    R l (l.modifyCoordinator c fun k => { k with metrics := k.metrics.add counter count })

variable {R : Ledger → Ledger → Prop}

instance [Slim R] : Serene R where
  node h := Slim.node ⟨h.uuid, h.alive, h.lastUpdate, h.lock⟩
  storage _ := Slim.unseen rfl rfl fun _ => rfl
  guarded := Slim.guarded
  announce {l n a} _ := by
    have hmade : R l (l.addStorage (.announced (l.node n).uuid a)).2 := Slim.unseen rfl rfl fun _ => rfl
    exact trans_of R hmade (Slim.node (l := (l.addStorage (.announced (l.node n).uuid a)).2)
      (Node.steady_of_eq rfl rfl rfl rfl))

instance [Narrow R] : Still R where
  toAloof := { counter := Narrow.counter }
  node := Serene.node

theorem Slim.calmWork [Slim R] (n : NodeRef) : AllowsCalmWork R n :=
  fun h halive hheard => Slim.node (Node.steady_of_eq h.uuid halive hheard h.lock)

theorem Slim.rewrite [Slim R] (l : Ledger) (v : StorageRef) (b : BlockRef) (blocks : Slab UInt64 BlockRef)
    (holders : List StorageRef) : R l (l.rewrite v b blocks holders) :=
  Slim.unseen rfl rfl fun _ => rfl

end Request

namespace Step
open Request (Slim Narrow)

/-- The steps that can change a registry, the life of nodes, when they were last heard of, or a lock. -/
def Stirs : Step → Prop
  | changeNode _ (.alive _) | changeNode _ (.lastUpdate _) | changeLock .. | makeCoordinator _
  | dropCoordinator _ | updateHeartbeat .. | register .. | removeNode .. | heartbeat .. | checkHeartbeats .. => True
  | _ => False

instance (step : Step) : Decidable step.Stirs := by
  rcases step
  case changeNode _ change => rcases change <;> unfold Stirs <;> infer_instance
  all_goals unfold Stirs; infer_instance

/-- The steps that can raise a counter. -/
def Counts : Step → Prop
  | heartbeat .. | addRecoveryOn .. => True
  | _ => False

private theorem lock_addLock (l : Ledger) (r : LockRef) : l.addLock.2.lock r = l.lock r := by
  unfold Ledger.lock Ledger.addLock
  rw [Array.getElem?_push]
  split
  · rename_i hr
    rw [hr, Array.getElem?_eq_none (Nat.le_refl _)]
    rfl
  · rfl

variable {R : Ledger → Ledger → Prop} {s : Service}

/-- What looks at nodes, coordinators and locks only sees no step but those that are named. -/
theorem slim_after [Slim R] {step : Step} (hstirs : ¬ step.Stirs) (hcounts : ¬ step.Counts) (h : step.Enabled s.ledger) :
    R s.ledger (step.after s).ledger := by
  have hunseen : ∀ {l' : Ledger}, l'.nodes = s.ledger.nodes → l'.coordinators = s.ledger.coordinators →
      l'.locks = s.ledger.locks → R s.ledger l' := by
    intro l' hnodes hcoordinators hlocks
    refine Slim.unseen hnodes hcoordinators fun r => ?_
    unfold Ledger.lock
    rw [hlocks]
  have hdetach : ∀ (l : Ledger) v b removed l', l.detach v b = .ok (removed, l') → R l l' :=
    Request.rel_detach Slim.rewrite
  have hattach : ∀ (l : Ledger) v b added l', l.attach v b = .ok (added, l') → R l l' :=
    Request.rel_attach Slim.rewrite
  have hwork : ∀ n, Request.AllowsCalmWork R n := Slim.calmWork
  cases step with
  | setClock clock => exact hunseen rfl rfl rfl
  | makeLock => exact Slim.unseen rfl rfl (lock_addLock s.ledger)
  | makeBlock block replication => exact hunseen rfl rfl rfl
  | makeOpenBlock b => exact hunseen rfl rfl rfl
  | beginRecovery r id => exact hunseen rfl rfl rfl
  | commit r => exact hunseen rfl rfl rfl
  | makeNode r location =>
    have hpin : R (s.ledger.addNode { Node.ofRegistration r with location }).2
        ((s.ledger.addNode { Node.ofRegistration r with location }).2.pin ⟨s.ledger.nodes.size⟩) :=
      Slim.unseen rfl rfl fun _ => rfl
    exact trans_of R (Slim.newNode s.ledger r location) hpin
  | pin n => exact hunseen rfl rfl rfl
  | unpin n => exact hunseen rfl rfl rfl
  | openCursor v => exact hunseen rfl rfl rfl
  | advance r => exact Request.respects_advance (fun _ _ => Slim.unseen rfl rfl fun _ => rfl) r s
  | closeCursor r => exact hunseen rfl rfl rfl
  | updateStorage n a => exact Request.idle_updateStorage n a s
  | changeNode n change =>
    refine Slim.node ?_
    cases change with
    | alive value => exact (hstirs trivial).elim
    | lastUpdate millis => exact (hstirs trivial).elim
    | _ => exact Node.steady_of_eq rfl rfl rfl rfl
  | changeStorage v change => exact hunseen rfl rfl rfl
  | bind | updateRegistration | receiveBlockReport | cache | addBlock | removeBlock | removeBlockFrom | replaceBlock
  | removeAllBlocks | addReportedBlock => exact respects_of_isReserved trivial hdetach fun _ => hattach
  | addTransfer | addRecovery | addInvalidations | resetBlocks | clearQueues | setBandwidth | requestKeyUpdate =>
    exact respects_of_isComposed trivial (fun n _ => hwork n) h
  | addRecoveryOn c uuid b => exact (hcounts trivial).elim
  | _ => exact (hstirs trivial).elim

/-- To one that does not look at counters, a recovery that is queued is nothing either. -/
theorem narrow_after [Narrow R] {step : Step} (hstirs : ¬ step.Stirs) (h : step.Enabled s.ledger) :
    R s.ledger (step.after s).ledger := by
  by_cases hcounts : step.Counts
  · cases step with
    | addRecoveryOn c uuid b => exact Request.respects_addRecoveryOn c uuid b fun n _ => Slim.calmWork n
    | heartbeat c uuid beat => exact (hstirs trivial).elim
    | _ => exact hcounts.elim
  · exact slim_after hstirs hcounts h

end Step

namespace Ledger
variable {l l' l'' : Ledger}

/-- The registries stay as they are, and the nodes keep their uuids and the locks they are tied to. -/
structure KeepsRegistries (l l' : Ledger) : Prop where
  size : l.nodes.size ≤ l'.nodes.size
  terms : l.KeepsTerms l'
  registry : ∀ c, (l'.coordinator c).nodes = (l.coordinator c).nodes
  uuid : ∀ n : NodeRef, n.index < l.nodes.size → (l'.node n).uuid = (l.node n).uuid
  tied : ∀ n r, (l.node n).lock = some r → (l'.node n).lock = some r

/-- Besides, the gauges stay as they are, none has been lowered at zero, and no node dies or comes to life; and as
far as `heard` goes, the nodes were last heard of when they were before. -/
structure Steady (heard : NodeRef → Prop) (l l' : Ledger) : Prop extends l.KeepsRegistries l' where
  gauge : ∀ c g, (l'.coordinator c).metrics.gauge g = (l.coordinator c).metrics.gauge g
  underflows : ∀ c, (l'.coordinator c).metrics.underflows = (l.coordinator c).metrics.underflows
  alive : ∀ n, (l'.node n).alive = (l.node n).alive
  lastUpdate : ∀ n, heard n → (l'.node n).stats.lastUpdate = (l.node n).stats.lastUpdate

instance : IsPreorder Ledger KeepsRegistries where
  refl _ := ⟨Nat.le_refl _, .of_eq rfl, fun _ => rfl, fun _ _ => rfl, fun _ _ h => h⟩
  trans _ _ _ h h' :=
    ⟨Nat.le_trans h.size h'.size, h.terms.trans h'.terms, fun c => (h'.registry c).trans (h.registry c),
      fun n hn => (h'.uuid n (Nat.lt_of_lt_of_le hn h.size)).trans (h.uuid n hn),
      fun n r hr => h'.tied n r (h.tied n r hr)⟩

theorem keepsRegistries_of_eq (hnodes : l'.nodes = l.nodes) (hcoordinators : l'.coordinators = l.coordinators) :
    l.KeepsRegistries l' := by
  have hnode : ∀ n, l'.node n = l.node n := fun n => by unfold node; rw [hnodes]
  have hcoordinator : ∀ c, l'.coordinator c = l.coordinator c := fun c => by unfold coordinator; rw [hcoordinators]
  exact ⟨Nat.le_of_eq (congrArg Array.size hnodes.symm), .of_eq hcoordinators,
    fun c => congrArg Coordinator.nodes (hcoordinator c), fun n _ => congrArg Node.uuid (hnode n),
    fun n r hr => (congrArg Node.lock (hnode n)).trans hr⟩

theorem keepsRegistries_modifyNode {n : NodeRef} {f : Node → Node} (huuid : (f (l.node n)).uuid = (l.node n).uuid)
    (hlock : ∀ r, (l.node n).lock = some r → (f (l.node n)).lock = some r) :
    l.KeepsRegistries (l.modifyNode n f) where
  size := Nat.le_of_eq Array.size_modify.symm
  terms := .of_eq rfl
  registry _ := rfl
  uuid m _ := node_modifyNode_congr Node.uuid huuid m
  tied m r hr := by
    rcases node_modifyNode_cases l n m f with hm | ⟨rfl, hm⟩
    · rw [hm]
      exact hr
    · rw [hm]
      exact hlock r hr

theorem keepsRegistries_metrics (l : Ledger) (c : CoordinatorRef) (f : Metrics → Metrics) :
    l.KeepsRegistries (l.modifyCoordinator c fun k => { k with metrics := f k.metrics }) where
  size := Nat.le_refl _
  terms := keepsTerms_modifyCoordinator rfl rfl
  registry := coordinator_modifyCoordinator_congr Coordinator.nodes rfl
  uuid _ _ := rfl
  tied _ _ hr := hr

theorem keepsRegistries_addNode (l : Ledger) (node : Node) : l.KeepsRegistries (l.addNode node).2 := by
  have hold : ∀ m : NodeRef, m.index < l.nodes.size → (l.addNode node).2.node m = l.node m := by
    intro m hm
    rcases node_addNode_cases l node m with hsame | ⟨hnew, -⟩
    · exact hsame
    · omega
  refine ⟨size_addNode l node ▸ Nat.le_succ _, .of_eq rfl, fun _ => rfl,
    fun m hm => congrArg Node.uuid (hold m hm), fun m r hr => ?_⟩
  by_cases hm : m.index < l.nodes.size
  · rw [hold m hm]
    exact hr
  · rw [node_of_le (Nat.le_of_not_lt hm)] at hr
    cases hr

instance : Request.Narrow KeepsRegistries where
  unseen hnodes hcoordinators _ := keepsRegistries_of_eq hnodes hcoordinators
  node h := keepsRegistries_modifyNode h.uuid h.lock
  newNode l _ _ := keepsRegistries_addNode l _
  counter l c counter count := keepsRegistries_metrics l c (Metrics.add · counter count)
  guarded h _ := Request.guarded_of_modifyLock (fun _ _ _ => keepsRegistries_of_eq rfl rfl) h

section steady
variable {heard : NodeRef → Prop}

instance : IsPreorder Ledger (Steady heard) where
  refl l := ⟨refl_of KeepsRegistries l, fun _ _ => rfl, fun _ => rfl, fun _ => rfl, fun _ _ => rfl⟩
  trans _ _ _ h h' :=
    ⟨trans_of KeepsRegistries h.toKeepsRegistries h'.toKeepsRegistries,
      fun c g => (h'.gauge c g).trans (h.gauge c g), fun c => (h'.underflows c).trans (h.underflows c),
      fun n => (h'.alive n).trans (h.alive n), fun n hn => (h'.lastUpdate n hn).trans (h.lastUpdate n hn)⟩

theorem steady_of_eq (hnodes : l'.nodes = l.nodes) (hcoordinators : l'.coordinators = l.coordinators) :
    l.Steady heard l' := by
  have hnode : ∀ n, l'.node n = l.node n := fun n => by unfold node; rw [hnodes]
  have hmetrics : ∀ c, (l'.coordinator c).metrics = (l.coordinator c).metrics := fun c => by
    unfold coordinator
    rw [hcoordinators]
  exact ⟨keepsRegistries_of_eq hnodes hcoordinators, fun c g => congrArg (Metrics.gauge · g) (hmetrics c),
    fun c => congrArg Metrics.underflows (hmetrics c), fun n => congrArg Node.alive (hnode n),
    fun n _ => congrArg (fun node : Node => node.stats.lastUpdate) (hnode n)⟩

theorem steady_modifyNode {n : NodeRef} {f : Node → Node} (h : l.KeepsRegistries (l.modifyNode n f))
    (halive : (f (l.node n)).alive = (l.node n).alive)
    (hlast : heard n → (f (l.node n)).stats.lastUpdate = (l.node n).stats.lastUpdate) :
    l.Steady heard (l.modifyNode n f) where
  toKeepsRegistries := h
  gauge _ _ := rfl
  underflows _ := rfl
  alive := node_modifyNode_congr Node.alive halive
  lastUpdate m hm := by
    rcases node_modifyNode_cases l n m f with hsame | ⟨rfl, hchanged⟩
    · rw [hsame]
    · rw [hchanged]
      exact hlast hm

instance : Request.Narrow (Steady heard) where
  unseen hnodes hcoordinators _ := steady_of_eq hnodes hcoordinators
  node h := steady_modifyNode (keepsRegistries_modifyNode h.uuid h.lock) h.alive fun _ => h.lastUpdate
  newNode l r location := by
    -- a node that has not been made is not alive either, and has not been heard of
    have hsame : ∀ n, ((l.addNode { Node.ofRegistration r with location }).2.node n).alive = (l.node n).alive ∧
        ((l.addNode { Node.ofRegistration r with location }).2.node n).stats = (l.node n).stats := by
      intro n
      rcases node_addNode_cases l { Node.ofRegistration r with location } n with h | ⟨hnew, h⟩
      · rw [h]
        exact ⟨rfl, rfl⟩
      · rw [h, node_of_le (Nat.le_of_eq hnew.symm)]
        exact ⟨rfl, rfl⟩
    exact ⟨keepsRegistries_addNode l _, fun _ _ => rfl, fun _ => rfl, fun n => (hsame n).1,
      fun n _ => congrArg NodeStats.lastUpdate (hsame n).2⟩
  counter l c counter count := by
    refine ⟨keepsRegistries_metrics l c (Metrics.add · counter count), fun k g => ?_, fun k => ?_, fun _ => rfl,
      fun _ _ => rfl⟩
    · exact coordinator_modifyCoordinator_congr (fun k => k.metrics.gauge g)
        (Metrics.gauge_add (l.coordinator c).metrics counter count g) k
    · exact coordinator_modifyCoordinator_congr (fun k => k.metrics.underflows)
        (Metrics.underflows_add (l.coordinator c).metrics counter count) k
  guarded h _ := Request.guarded_of_modifyLock (fun _ _ _ => steady_of_eq rfl rfl) h

/-- Hearing from other nodes is nothing to those that count. -/
theorem allowsHearing_steady {n : NodeRef} (hn : ¬ heard n) : Request.AllowsHearing (Steady heard) n :=
  fun h halive => steady_modifyNode (keepsRegistries_modifyNode h.uuid h.lock) halive fun h => (hn h).elim

end steady

/-- The life of nodes is nothing to the registries. -/
theorem allowsLife_keepsRegistries (c : CoordinatorRef) (n : NodeRef) : Request.AllowsLife KeepsRegistries c n :=
  ⟨fun h => keepsRegistries_modifyNode h.uuid h.lock, fun l f _ => keepsRegistries_metrics l c f⟩

end Ledger
end DatanodeLedger
