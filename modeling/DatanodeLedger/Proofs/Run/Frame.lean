import DatanodeLedger.Proofs.Request.Frame
import DatanodeLedger.Proofs.Run.Step

/-! A relation between ledgers that is shown of the single changes holds across every step. -/
namespace DatanodeLedger

theorem Node.Change.settles (change : Node.Change) {l : Ledger} {node : Node} :
    l.Settles node (change.apply node) := by
  cases change with
  | pollTransfers max =>
    refine ⟨rfl, rfl, rfl, fun t ht => .inl ?_⟩
    rw [← node.transfers.poll_append max]
    exact List.mem_append_right _ ht
  | _ => exact ⟨rfl, rfl, rfl, fun _ ht => .inl ht⟩

theorem Storage.Change.idle (change : Storage.Change) {storage : Storage} :
    storage.Idle (change.apply storage) := by
  cases change <;> exact ⟨rfl, rfl, rfl⟩

namespace Step
open Request (Frame AllowsWork AllowsCalmWork)

/-- The steps that can put a block on a list. -/
def Places : Step → Prop
  | addBlock .. | replaceBlock .. | addReportedBlock .. => True
  | _ => False

/-- The steps that can change the work that waits for a node. -/
def WorksOn (l : Ledger) (n : NodeRef) : Step → Prop
  | changeNode m _ | addTransfer m _ _ | addRecovery m _ | clearQueues _ m => m = n
  | removeNode c uuid | heartbeat c uuid _ | addRecoveryOn c uuid _ => (l.coordinator c).nodes.find? uuid = some n
  | _ => False

/-- The requests that only do what reserved relations allow for, besides taking blocks off lists and putting them
on. -/
def IsReserved : Step → Prop
  | bind .. | updateRegistration .. | receiveBlockReport _ | cache .. | addBlock .. | removeBlock .. | removeBlockFrom ..
  | replaceBlock .. | removeAllBlocks .. | addReportedBlock .. => True
  | _ => False

/-- The requests that only do what composed relations allow for, besides changing the work that waits for a node. -/
def IsComposed : Step → Prop
  | addTransfer .. | addRecovery .. | addInvalidations .. | resetBlocks .. | clearQueues .. | setBandwidth ..
  | requestKeyUpdate _ => True
  | _ => False

variable {R : Ledger → Ledger → Prop} {s : Service}

theorem respects_of_isReserved [Request.Reserved R] {step : Step} (hreserved : step.IsReserved)
    (hdetach : ∀ (l : Ledger) v b removed l', l.detach v b = .ok (removed, l') → R l l')
    (hattach : step.Places → ∀ (l : Ledger) v b added l', l.attach v b = .ok (added, l') → R l l') :
    R s.ledger (step.after s).ledger := by
  cases step with
  | bind n r => exact Request.idle_bind n r s
  | updateRegistration n r => exact Request.idle_updateRegistration n r s
  | receiveBlockReport v => exact Request.idle_receiveBlockReport v s
  | cache g n f => exact Request.idle_cache n g f s
  | addBlock g n id b => exact Request.respects_addBlock (hattach trivial) hdetach g n id b s
  | removeBlock g n b => exact Request.respects_removeBlock hdetach g n b s
  | removeBlockFrom g n id b => exact Request.respects_removeBlockFrom hdetach g n id b s
  | replaceBlock g n old new => exact Request.respects_replaceBlock (hattach trivial) hdetach g n old new s
  | removeAllBlocks g n => exact Request.respects_removeAllBlocks hdetach g n s
  | addReportedBlock c uuid id b => exact Request.respects_addReportedBlock (hattach trivial) hdetach c uuid id b s
  | _ => exact hreserved.elim

theorem respects_of_isComposed [Request.Composed R] {step : Step} (hcomposed : step.IsComposed)
    (hwork : ∀ n, step.WorksOn s.ledger n → Request.AllowsCalmWork R n) (h : step.Enabled s.ledger) :
    R s.ledger (step.after s).ledger := by
  cases step with
  | addTransfer n b targets => exact Request.respects_addTransfer (hwork n rfl) b h.2
  | addRecovery n b => exact Request.respects_addRecovery (hwork n rfl) b s
  | addInvalidations n bs => exact Request.idle_addInvalidations n bs s
  | resetBlocks g n => exact Request.idle_resetBlocks n g s
  | clearQueues g n => exact Request.respects_clearQueues (hwork n rfl) g s
  | setBandwidth c bandwidth => exact Request.idle_setBandwidth c bandwidth s
  | requestKeyUpdate c => exact Request.idle_requestKeyUpdate c s
  | _ => exact hcomposed.elim

variable [Frame R]

/-- Besides what a frame allows for, only three things have to be seen to: what takes blocks off lists, what
puts them on lists if the step can do that, and the work of the nodes that the step can change. -/
theorem respects_after
    (hdetach : ∀ (l : Ledger) v b removed l', l.detach v b = .ok (removed, l') → R l l') (step : Step)
    (hattach : step.Places → ∀ (l : Ledger) v b added l', l.attach v b = .ok (added, l') → R l l')
    (hwork : ∀ n, step.WorksOn s.ledger n → AllowsWork R n) (h : step.Enabled s.ledger) :
    R s.ledger (step.after s).ledger := by
  have hhands : ∀ {l' : Ledger}, l'.nodes = s.ledger.nodes → l'.storages = s.ledger.storages →
      l'.blocks = s.ledger.blocks → l'.cursors = s.ledger.cursors → l'.coordinators = s.ledger.coordinators →
      (∀ n ∈ l'.heldNodes, n ∈ s.ledger.heldNodes) → R s.ledger l' :=
    fun nodes storages blocks cursors coordinators held =>
      Frame.hands nodes storages blocks cursors (.of_eq coordinators) fun n hn => .inl (held n hn)
  have hcalm : ∀ n, step.WorksOn s.ledger n → AllowsCalmWork R n := fun n hn => AllowsWork.calm (hwork n hn)
  cases step with
  | setClock clock => exact hhands rfl rfl rfl rfl rfl fun _ hn => hn
  | makeLock => exact hhands rfl rfl rfl rfl rfl fun _ hn => hn
  | changeLock r lock => exact hhands rfl rfl rfl rfl rfl fun _ hn => hn
  | makeBlock block replication => exact Frame.block s.ledger block replication
  | makeOpenBlock b => exact hhands rfl rfl rfl rfl rfl fun _ hn => hn
  | beginRecovery r id => exact hhands rfl rfl rfl rfl rfl fun _ hn => hn
  | commit r => exact hhands rfl rfl rfl rfl rfl fun _ hn => hn
  | makeCoordinator limits =>
    refine Frame.hands rfl rfl rfl rfl (Ledger.keepsTerms_addCoordinator s.ledger limits) fun n hn => .inl ?_
    exact Ledger.mem_heldNodes_addCoordinator hn
  | dropCoordinator c => exact Frame.coordinator rfl rfl fun _ hn => (List.not_mem_nil hn).elim
  | makeNode r location =>
    have hpin : R (s.ledger.addNode { Node.ofRegistration r with location }).2
        ((s.ledger.addNode { Node.ofRegistration r with location }).2.pin ⟨s.ledger.nodes.size⟩) := by
      refine Frame.hands rfl rfl rfl rfl (.of_eq rfl) fun n hn => ?_
      rcases Ledger.mem_heldNodes_pin hn with rfl | hn
      · refine .inr ⟨?_, fun v => Ledger.keeps_new s.ledger rfl rfl⟩
        rw [Ledger.size_addNode]
        exact Nat.lt_succ_self _
      · exact .inl hn
    exact trans_of R (Frame.newNode s.ledger r location) hpin
  | pin n =>
    refine hhands rfl rfl rfl rfl rfl fun m hm => ?_
    rcases Ledger.mem_heldNodes_pin hm with rfl | hm
    · exact h
    · exact hm
  | unpin n => exact hhands rfl rfl rfl rfl rfl fun _ => Ledger.mem_heldNodes_unpin
  | openCursor v => exact Request.idle_openCursor h
  | advance r => exact Request.idle_advance r s
  | closeCursor r => exact Request.idle_closeCursor r s
  | updateStorage n a => exact Request.idle_updateStorage n a s
  | changeNode n change => exact hwork n rfl change.settles
  | changeStorage v change => exact Frame.storage change.idle
  | updateHeartbeat n beat => exact Request.respects_updateHeartbeat (Request.Frame.life ⟨0⟩ n).hearing beat s
  | bind | updateRegistration | receiveBlockReport | cache | addBlock | removeBlock | removeBlockFrom | replaceBlock
  | removeAllBlocks | addReportedBlock => exact respects_of_isReserved trivial hdetach hattach
  | addTransfer | addRecovery | addInvalidations | resetBlocks | clearQueues | setBandwidth | requestKeyUpdate =>
    exact respects_of_isComposed trivial hcalm h
  | register c r storages =>
    exact Request.respects_register (Request.Frame.life c) (Request.idle_enroll c r) storages s
  | removeNode c uuid =>
    exact Request.respects_removeNode hdetach c uuid hcalm (fun _ => Request.Frame.forget) Request.Frame.unpin
      (Request.Frame.life c)
  | heartbeat c uuid beat =>
    exact Request.respects_heartbeat c uuid beat hcalm
      fun n _ => (Request.Frame.life c n).hearing
  | checkHeartbeats c now => exact Request.respects_checkHeartbeats (Request.Frame.life c) now s
  | addRecoveryOn c uuid b => exact Request.respects_addRecoveryOn c uuid b hcalm

end Step

instance : IsPreorder Ledger Ledger.KeepsTerms where
  refl _ := .of_eq rfl
  trans _ _ _ := Ledger.KeepsTerms.trans

instance : Request.WorkFrame Ledger.KeepsTerms where
  node _ := .of_eq rfl
  storage _ := .of_eq rfl
  hands _ _ _ _ terms _ := terms
  block _ _ _ := .of_eq rfl
  newNode _ _ _ := .of_eq rfl
  announce _ := .of_eq rfl
  cursors _ := .of_eq rfl
  work _ _ _ _ := .of_eq rfl

theorem Step.keepsTerms_after {s : Service} (step : Step) (h : step.Enabled s.ledger) :
    s.ledger.KeepsTerms (step.after s).ledger :=
  step.respects_after (Request.rel_detach fun _ _ _ _ _ => .of_eq rfl)
    (fun _ => Request.rel_attach fun _ _ _ _ _ => .of_eq rfl) (fun n _ => Request.WorkFrame.work n) h

end DatanodeLedger
