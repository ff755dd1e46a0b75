import DatanodeLedger.Proofs.Run.Orderly

/-! Guards of another lock. A node that is tied to a lock refuses them, whatever the request; but two
requests write before they look at their guard, and what they have written stays. -/
namespace DatanodeLedger

/-- The requests to a node that need a guard of its lock. -/
inductive Guarded where
  | addBlock (id : String) (b : BlockRef)
  | removeBlock (b : BlockRef)
  | removeBlockFrom (id : String) (b : BlockRef)
  | replaceBlock (old new : BlockRef)
  | walkBlocks
  | walkStorage (id : String)
  | removeAllBlocks
  | cache (f : CacheLists → Except Fault (PUnit × CacheLists))
  | numCached (stage : CacheStage)
  | resetBlocks
  | clearQueues

namespace Guarded

/-- The request, apart from its answer. -/
def run (g : Guard) (n : NodeRef) : Guarded → Request PUnit
  | addBlock id b => discard (Request.addBlock g n id b)
  | removeBlock b => discard (Request.removeBlock g n b)
  | removeBlockFrom id b => discard (Request.removeBlockFrom g n id b)
  | replaceBlock old new => discard (Request.replaceBlock g n old new)
  | walkBlocks => discard (Request.walkBlocks g n)
  | walkStorage id => discard (Request.walkStorage g n id)
  | removeAllBlocks => discard (Request.removeAllBlocks g n)
  | cache f => Request.cache g n f
  | numCached stage => discard (Request.numCached g n stage)
  | resetBlocks => Request.resetBlocks g n
  | clearQueues => Request.clearQueues g n

/-- The request looks at its guard before it does anything. -/
def ChecksFirst : Guarded → Prop
  | resetBlocks | clearQueues => False
  | _ => True

/-- What becomes of the node before the request looks at its guard. -/
def early : Guarded → Node → Node
  | resetBlocks => Node.forgetReports
  | clearQueues => Node.dropWork
  | _ => id

/-- There is nothing for the request to write before it looks at its guard. -/
def Harmless (node : Node) : Guarded → Prop
  | resetBlocks => node.stats = { lastUpdate := node.stats.lastUpdate } ∧ node.invalidations = {} ∧
    node.volumeFailures = 0
  | clearQueues => node.invalidations = {} ∧ node.recoveries = {} ∧ node.transfers = {}
  | _ => True

theorem early_eq_iff (q : Guarded) (node : Node) : q.early node = node ↔ q.Harmless node := by
  have ⟨_, _, _, _, stats, _, _, _, _, failures, _, transfers, recoveries, invalidations, _, _⟩ := node
  cases q with
  | resetBlocks =>
    simp only [early, Node.forgetReports, Node.mk.injEq, Harmless, true_and, and_true]
    rw [eq_comm (a := stats), eq_comm (a := invalidations), eq_comm (a := failures)]
    exact ⟨fun h => ⟨h.1, h.2.2, h.2.1⟩, fun h => ⟨h.1, h.2.2, h.2.1⟩⟩
  | clearQueues =>
    simp only [early, Node.dropWork, Node.mk.injEq, Harmless, true_and, and_true]
    rw [eq_comm (a := invalidations), eq_comm (a := recoveries), eq_comm (a := transfers)]
    exact ⟨fun h => ⟨h.2.2, h.2.1, h.1⟩, fun h => ⟨h.2.2, h.2.1, h.1⟩⟩
  | _ => exact ⟨fun _ => trivial, fun _ => rfl⟩

end Guarded

namespace Ledger
variable {l : Ledger} {n : NodeRef}

/-- A change of a node that has been made is seen exactly if the change is one. -/
theorem modifyNode_eq_iff (hn : n.index < l.nodes.size) (f : Node → Node) :
    l.modifyNode n f = l ↔ f (l.node n) = l.node n := by
  constructor
  · intro h
    rw [← node_modifyNode hn f, h]
  · intro h
    have hnodes : l.nodes.modify n.index f = l.nodes := by
      refine Array.ext_getElem? fun i => ?_
      rw [Array.getElem?_modify]
      split
      · rename_i hi
        subst hi
        have hnode : l.nodes[n.index]? = some (l.node n) := by
          unfold node
          rw [Array.getElem?_eq_getElem hn]
          rfl
        rw [hnode, Option.map_some, h]
      · rfl
    unfold modifyNode
    rw [hnodes]

end Ledger

namespace Request
variable {α : Type} {s s' : Service} {n : NodeRef} {g : Guard} {r : LockRef}

private theorem exec_discard {q : Request α} {e : Fault} (h : q.exec s = (.error e, s')) :
    (discard q : Request PUnit).exec s = (.error e, s') := by
  have hq : (discard q : Request PUnit) = q >>= fun _ => pure ⟨⟩ := (bind_pure_comp _ q).symm
  rw [hq, exec_bind_error h]

theorem exec_check_foreign (hlock : (s.ledger.node n).lock = some r) (hr : r ≠ g.lock) :
    (check n g).exec s = (.error (.foreignNamespace (s.ledger.node n).uuid), s) := by
  unfold check
  rw [exec_bind_ok (exec_node ..)]
  simp only [hlock, ne_eq, hr, not_false_eq_true, if_true]
  rfl

/-- What comes after the guard is not reached. -/
private theorem exec_refused (hlock : (s.ledger.node n).lock = some r) (hr : r ≠ g.lock)
    (rest : PUnit → Request α) :
    (check n g >>= rest).exec s = (.error (.foreignNamespace (s.ledger.node n).uuid), s) := by
  rw [exec_bind_error (exec_check_foreign hlock hr)]

/-- The guard is looked at on the node as it has become by then. -/
private theorem exec_refused_late (hn : n.index < s.ledger.nodes.size)
    (hlock : (s.ledger.node n).lock = some r) (hr : r ≠ g.lock) {f : Node → Node}
    (huuid : (f (s.ledger.node n)).uuid = (s.ledger.node n).uuid)
    (hf : (f (s.ledger.node n)).lock = (s.ledger.node n).lock) :
    (do modifyNode n f; clearCache g n).exec s =
      (.error (.foreignNamespace (s.ledger.node n).uuid), { s with ledger := s.ledger.modifyNode n f }) := by
  have hnode : (s.ledger.modifyNode n f).node n = f (s.ledger.node n) := Ledger.node_modifyNode hn f
  have hlock' : ((s.ledger.modifyNode n f).node n).lock = some r := by rw [hnode, hf, hlock]
  rw [exec_bind]
  unfold modifyNode
  rw [exec_modifyLedger]
  simp only
  unfold clearCache cache
  rw [exec_refused (s := { s with ledger := s.ledger.modifyNode n f }) hlock' hr]
  simp only
  rw [hnode, huuid]

theorem exec_guarded_of_checksFirst (hlock : (s.ledger.node n).lock = some r) (hr : r ≠ g.lock)
    {q : Guarded} (hq : q.ChecksFirst) :
    (q.run g n).exec s = (.error (.foreignNamespace (s.ledger.node n).uuid), s) := by
  have hwalk : (walkBlocks g n).exec s = (.error (.foreignNamespace (s.ledger.node n).uuid), s) :=
    exec_refused hlock hr _
  cases q with
  | addBlock id b => exact exec_discard (exec_refused hlock hr _)
  | removeBlock b => exact exec_discard (exec_refused hlock hr _)
  | removeBlockFrom id b => exact exec_discard (exec_refused hlock hr _)
  | replaceBlock old new => exact exec_discard (exec_refused hlock hr _)
  | walkBlocks => exact exec_discard hwalk
  | walkStorage id => exact exec_discard (exec_refused hlock hr _)
  | removeAllBlocks =>
    refine exec_discard ?_
    unfold removeAllBlocks
    rw [exec_bind_error hwalk]
  | cache f => exact exec_refused hlock hr _
  | numCached stage => exact exec_discard (exec_refused hlock hr _)
  | resetBlocks => exact hq.elim
  | clearQueues => exact hq.elim

theorem exec_guarded (hn : n.index < s.ledger.nodes.size) (hlock : (s.ledger.node n).lock = some r)
    (hr : r ≠ g.lock) (q : Guarded) :
    (q.run g n).exec s = (.error (.foreignNamespace (s.ledger.node n).uuid),
      { s with ledger := s.ledger.modifyNode n q.early }) := by
  have hid : s.ledger.modifyNode n id = s.ledger := (Ledger.modifyNode_eq_iff hn id).2 rfl
  cases q with
  | resetBlocks => exact exec_refused_late hn hlock hr rfl rfl
  | clearQueues => exact exec_refused_late hn hlock hr rfl rfl
  | _ =>
    unfold Guarded.early
    rw [hid]
    exact exec_guarded_of_checksFirst hlock hr trivial

end Request

variable {s : Service} {n : NodeRef} {r : LockRef} {g : Guard}

/-- A node that is tied to a lock refuses every guard of another lock. Whoever looks at the guard first
leaves everything as it was; the other two leave it so exactly if there was nothing to forget or to drop, and
what else they leave behind is the node without what they have forgotten or dropped. -/
theorem foreign_guard_refused (h : Reachable s) (hn : n ∈ s.ledger.heldNodes)
    (hlock : (s.ledger.node n).lock = some r) (hr : r ≠ g.lock) (q : Guarded) :
    ((q.run g n).exec s).1 = .error (.foreignNamespace (s.ledger.node n).uuid) ∧
    (q.ChecksFirst → ((q.run g n).exec s).2 = s) ∧
    (((q.run g n).exec s).2 = s ↔ q.Harmless (s.ledger.node n)) ∧
    ((q.run g n).exec s).2 = { s with ledger := s.ledger.modifyNode n q.early } := by
  have hmade := h.orderly.held n hn
  have hexec := Request.exec_guarded hmade hlock hr q
  refine ⟨congrArg Prod.fst hexec, fun hq => ?_, ?_, congrArg Prod.snd hexec⟩
  · rw [Request.exec_guarded_of_checksFirst hlock hr hq]
  · rw [hexec, ← q.early_eq_iff, ← Ledger.modifyNode_eq_iff hmade]
    constructor
    · exact congrArg Service.ledger
    · intro he
      simp only
      rw [he]

/-- A node with figures, work of all three kinds and a block, and a lock that is not its own. -/
def busySteps : List Step :=
  [.makeCoordinator {}, .makeLock, .makeBlock ⟨1, 10, 1⟩ 3, .makeOpenBlock { block := ⟨2, 20, 1⟩ },
    .register ⟨0⟩ (.ofAddress "n" "10.0.0.1" 9866) [{ id := "A" }],
    .updateHeartbeat ⟨0⟩ { cacheCapacity := 7, volumeFailures := 2 },
    .addReportedBlock ⟨0⟩ "n" "A" ⟨0⟩, .addTransfer ⟨0⟩ ⟨9, 0, 1⟩ [⟨0⟩], .addRecovery ⟨0⟩ ⟨0⟩,
    .addInvalidations ⟨0⟩ [⟨3, 0, 1⟩]]

theorem foreign_guard_refused_busy :
    let s := ({} : Service).run busySteps
    Reachable s ∧ ⟨0⟩ ∈ s.ledger.heldNodes ∧ (s.ledger.node ⟨0⟩).lock = some ⟨0⟩ ∧
    ((Guarded.removeAllBlocks.run ⟨⟨1⟩⟩ ⟨0⟩).exec s).1 = .error (.foreignNamespace "n") ∧
    ((Guarded.removeAllBlocks.run ⟨⟨1⟩⟩ ⟨0⟩).exec s).2 = s ∧
    ((Guarded.clearQueues.run ⟨⟨1⟩⟩ ⟨0⟩).exec s).2 =
      { s with ledger := s.ledger.modifyNode ⟨0⟩ Node.dropWork } := by
  intro s
  have h : Reachable s := (Reachable.start 0).run (by decide +kernel)
  have hn : (⟨0⟩ : NodeRef) ∈ s.ledger.heldNodes := by decide +kernel
  have hlock : (s.ledger.node ⟨0⟩).lock = some ⟨0⟩ := by decide +kernel
  have hr : (⟨0⟩ : LockRef) ≠ (⟨⟨1⟩⟩ : Guard).lock := by decide
  have huuid : (s.ledger.node ⟨0⟩).uuid = "n" := by decide +kernel
  obtain ⟨hanswer, hsame, -, -⟩ := foreign_guard_refused h hn hlock hr .removeAllBlocks
  obtain ⟨-, -, -, hdrop⟩ := foreign_guard_refused h hn hlock hr .clearQueues
  exact ⟨h, hn, hlock, huuid ▸ hanswer, hsame trivial, hdrop⟩

/-- The two that write first are refused, and yet the node has lost what it was told in its heartbeat and
what it had to delete, or all the work that waited for it. -/
theorem refused_guard_loses_work :
    let s := ({} : Service).run busySteps
    let reset := (Request.resetBlocks ⟨⟨1⟩⟩ ⟨0⟩).exec s
    let cleared := (Request.clearQueues ⟨⟨1⟩⟩ ⟨0⟩).exec s
    Reachable s ∧ ⟨0⟩ ∈ s.ledger.heldNodes ∧ (s.ledger.node ⟨0⟩).lock = some ⟨0⟩ ∧
    reset.1 = .error (.foreignNamespace "n") ∧ cleared.1 = .error (.foreignNamespace "n") ∧
    (s.ledger.node ⟨0⟩).volumeFailures = 2 ∧ (reset.2.ledger.node ⟨0⟩).volumeFailures = 0 ∧
    (s.ledger.node ⟨0⟩).stats.cacheCapacity = 7 ∧ (reset.2.ledger.node ⟨0⟩).stats.cacheCapacity = 0 ∧
    (s.ledger.node ⟨0⟩).transfers.size = 1 ∧ (cleared.2.ledger.node ⟨0⟩).transfers.size = 0 ∧
    (s.ledger.node ⟨0⟩).recoveries.size = 1 ∧ (cleared.2.ledger.node ⟨0⟩).recoveries.size = 0 ∧
    (s.ledger.node ⟨0⟩).invalidations.size = 1 ∧ (cleared.2.ledger.node ⟨0⟩).invalidations.size = 0 := by
  intro s reset cleared
  refine ⟨(Reachable.start 0).run (by decide +kernel), by decide +kernel, by decide +kernel, rfl, rfl, ?_⟩
  decide +kernel

end DatanodeLedger
