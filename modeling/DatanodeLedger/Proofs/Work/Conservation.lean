import DatanodeLedger.Proofs.Run.Orderly
import DatanodeLedger.Proofs.Work.Dispatch

/-! No queued work is lost, sent twice or sent out of order: what a node has been sent and what still waits
for it are what has been queued on it, in that order. -/
namespace DatanodeLedger

namespace Ledger
variable {l l' : Ledger}

/-- All transfers that wait have targets. -/
def Targeted (l : Ledger) : Prop := ∀ n, ∀ t ∈ (l.node n).transfers.items, t.targets ≠ []

/-- Transfers that get queued have targets. -/
def Targets (l l' : Ledger) : Prop :=
  ∀ n, ∀ t ∈ (l'.node n).transfers.items, t ∈ (l.node n).transfers.items ∨ t.targets ≠ []

instance : IsPreorder Ledger Targets where
  refl _ _ _ ht := .inl ht
  trans _ _ _ h h' n t ht := (h' n t ht).elim (h n t) .inr

theorem targets_of_transfers (h : ∀ n, (l'.node n).transfers = (l.node n).transfers) : l.Targets l' :=
  fun n _ ht => .inl (h n ▸ ht)

theorem targets_of_nodes (h : l'.nodes = l.nodes) : l.Targets l' :=
  targets_of_transfers fun n => by unfold node; rw [h]

instance : Request.WorkFrame Targets where
  node h := targets_of_transfers (node_modifyNode_congr Node.transfers h.transfers)
  storage _ := targets_of_nodes rfl
  hands nodes _ _ _ _ _ := targets_of_nodes nodes
  block _ _ _ := targets_of_nodes rfl
  newNode l r location := targets_of_transfers fun n => by
    have hundisturbed : Undisturbed n l (l.addNode { Node.ofRegistration r with location }).2 :=
      Request.Frame.newNode l r location
    exact hundisturbed.transfers
  announce {l m a} h := targets_of_transfers fun n => by
    have hundisturbed : Undisturbed n l (l.announce m a) := Request.Frame.announce h
    exact hundisturbed.transfers
  cursors _ := targets_of_nodes rfl
  work m l f h := by
    intro n t ht
    rcases node_modifyNode_cases l m n f with hn | ⟨rfl, hn⟩
    · exact .inl (hn ▸ ht)
    · rw [hn] at ht
      exact (h.transfers t ht).imp_right And.left

end Ledger
open Ledger (Undisturbed Targets)

variable {s : Service} {n : NodeRef}

theorem Step.targets_after (step : Step) (h : step.Enabled s.ledger) :
    s.ledger.Targets (step.after s).ledger :=
  step.respects_after (Request.rel_detach fun _ _ _ _ _ => Ledger.targets_of_nodes rfl)
    (fun _ => Request.rel_attach fun _ _ _ _ _ => Ledger.targets_of_nodes rfl)
    (fun n _ => Request.WorkFrame.work n) h

theorem Reachable.targeted (h : Reachable s) : s.ledger.Targeted := by
  refine h.induct (P := Ledger.Targeted) (fun _ _ _ ht => (List.not_mem_nil ht).elim) ?_
  exact fun s step hl hstep n t ht => (step.targets_after hstep n t ht).elim (hl n t) id

namespace Step

/-- The steps that take work from a node and do not send it there in the answer to a heartbeat: a caller takes a
batch itself, drops the queues, or has the node forgotten. -/
def Withdraws (l : Ledger) (n : NodeRef) : Step → Prop
  | changeNode m (.pollTransfers _) | changeNode m (.pollRecoveries _) | clearQueues _ m => m = n
  | removeNode c uuid => (l.coordinator c).nodes.find? uuid = some n
  | _ => False

instance (l : Ledger) (n : NodeRef) (step : Step) : Decidable (step.Withdraws l n) := by
  rcases step
  case changeNode _ change => rcases change <;> unfold Withdraws <;> infer_instance
  all_goals unfold Withdraws; infer_instance

/-- The commands that a node is sent in the answer to a heartbeat. -/
def sent (n : NodeRef) (s : Service) : Step → List Command
  | heartbeat c uuid beat =>
    if (s.ledger.coordinator c).nodes.find? uuid = some n then
      match ((Request.heartbeat c uuid beat).exec s).1 with
      | .ok (.ok commands) => commands
      | _ => []
    else []
  | _ => []

/-- The transfer that a step queues on a node, if it is accepted. -/
def transfers (n : NodeRef) (s : Service) : Step → List Transfer
  | addTransfer m block targets =>
    if m = n then
      match ((Request.addTransfer m block targets).exec s).1 with
      | .ok (.ok _) => [{ block, targets }]
      | _ => []
    else []
  | _ => []

/-- The recovery that a step queues on a node, if it is accepted. -/
def recoveries (n : NodeRef) (s : Service) : Step → List OpenRef
  | addRecovery m b =>
    if m = n then
      match ((Request.addRecovery m b).exec s).1 with
      | .ok true => [b]
      | _ => []
    else []
  | addRecoveryOn c uuid b =>
    if (s.ledger.coordinator c).nodes.find? uuid = some n then
      match ((Request.addRecoveryOn c uuid b).exec s).1 with
      | .ok (.ok true) => [b]
      | _ => []
    else []
  | _ => []

/-- Between two services, what a node is sent and what waits for it afterwards are what waited before and what has
been queued. -/
structure Balanced (n : NodeRef) (s s' : Service) (sent : List Command) (transfers : List Transfer)
    (recoveries : List OpenRef) : Prop where
  transfers : sent.flatMap Command.transfers ++ (s'.ledger.node n).transfers.items =
    (s.ledger.node n).transfers.items ++ transfers
  recoveries : sent.flatMap Command.recoveries ++ (s'.ledger.node n).recoveries.items =
    (s.ledger.node n).recoveries.items ++ recoveries

theorem balanced_of_undisturbed {s' : Service} (h : Undisturbed n s.ledger s'.ledger) : Balanced n s s' [] [] [] := by
  constructor
  · rw [h.transfers, List.append_nil]
    rfl
  · rw [h.recoveries, List.append_nil]
    rfl

theorem balanced_of_issued {s' : Service} {limits : Limits} {commands : List Command}
    (h : Issued limits (s.ledger.node n) (s'.ledger.node n) commands) : Balanced n s s' commands [] [] where
  transfers := by rw [h.transfers_append, List.append_nil]
  recoveries := by rw [h.recoveries_append, List.append_nil]

/-- A step that does not work on the node leaves its queues alone. -/
theorem balanced_of_not_worksOn (step : Step) (h : step.Enabled s.ledger) (hwork : ¬ step.WorksOn s.ledger n) :
    Balanced n s (step.after s) (step.sent n s) (step.transfers n s) (step.recoveries n s) := by
  have hnode : ∀ (l : Ledger) v b blocks holders, Undisturbed n l (l.rewrite v b blocks holders) :=
    fun _ _ _ _ _ => Ledger.undisturbed_of_nodes rfl (.of_eq rfl)
  have hundisturbed : Undisturbed n s.ledger (step.after s).ledger := by
    refine step.respects_after (Request.rel_detach hnode) (fun _ => Request.rel_attach hnode) (fun m hm => ?_) h
    refine Ledger.allowsWork_undisturbed ?_
    rintro rfl
    exact hwork hm
  have hbalanced := balanced_of_undisturbed hundisturbed
  cases step with
  | addTransfer m b targets => rwa [transfers, if_neg (show ¬ m = n from hwork)]
  | addRecovery m b => rwa [recoveries, if_neg (show ¬ m = n from hwork)]
  | addRecoveryOn c uuid b =>
    rwa [recoveries, if_neg (show ¬ (s.ledger.coordinator c).nodes.find? uuid = some n from hwork)]
  | heartbeat c uuid beat =>
    rwa [sent, if_neg (show ¬ (s.ledger.coordinator c).nodes.find? uuid = some n from hwork)]
  | _ => exact hbalanced

/-- The changes of a node that its callers make directly are idle, apart from the batches that they take. -/
theorem balanced_changeNode {change : Node.Change} (hkeep : ¬ (changeNode n change).Withdraws s.ledger n) :
    Balanced n s ((changeNode n change).after s) [] [] [] := by
  refine balanced_of_undisturbed ?_
  cases change with
  | pollTransfers max => exact (hkeep rfl).elim
  | pollRecoveries max => exact (hkeep rfl).elim
  | _ => exact Ledger.undisturbed_modifyNode rfl rfl

/-- A transfer is queued behind the others if it has targets, and nothing happens if it has none. -/
theorem exec_addTransfer (hn : n.index < s.ledger.nodes.size) (block : Block) (targets : List StorageRef) :
    ∃ answer s', (Request.addTransfer n block targets).exec s = (.ok answer, s') ∧
      Balanced n s s' [] (match answer with | .ok _ => [{ block, targets }] | .error _ => []) [] := by
  unfold Request.addTransfer Transfer.make
  cases targets with
  | nil => exact ⟨_, _, rfl, balanced_of_undisturbed (refl_of (Undisturbed n) s.ledger)⟩
  | cons t targets =>
    let transfer : Transfer := { block, targets := t :: targets }
    have hnode : (s.ledger.modifyNode n fun node => node.addTransfer transfer).node n =
        (s.ledger.node n).addTransfer transfer := Ledger.node_modifyNode hn _
    refine ⟨.ok ⟨⟩, _, rfl, ⟨?_, ?_⟩⟩
    · exact congrArg (fun node => node.transfers.items) hnode
    · exact (congrArg (fun node => node.recoveries.items) hnode).trans (List.append_nil _).symm

/-- A recovery is queued behind the others if it is accepted, and nothing happens if it is not. -/
theorem exec_addRecovery (hn : n.index < s.ledger.nodes.size) (b : OpenRef) :
    ∃ added s', (Request.addRecovery n b).exec s = (.ok added, s') ∧
      Balanced n s s' [] [] (if added then [b] else []) := by
  unfold Request.addRecovery
  rw [Request.exec_bind_ok (Request.exec_ledger _)]
  unfold Work.Queue.offerIfAbsent
  simp only
  split
  · exact ⟨false, _, rfl, balanced_of_undisturbed (refl_of (Undisturbed n) s.ledger)⟩
  · let queue := (s.ledger.node n).recoveries.offer b
    have hnode : (s.ledger.modifyNode n fun node => { node with recoveries := queue }).node n =
        { s.ledger.node n with recoveries := queue } := Ledger.node_modifyNode hn _
    refine ⟨true, _, rfl, ⟨?_, ?_⟩⟩
    · exact (congrArg (fun node => node.transfers.items) hnode).trans (List.append_nil _).symm
    · exact congrArg (fun node => node.recoveries.items) hnode

theorem exec_addRecoveryOn {c : CoordinatorRef} {uuid : String}
    (hfind : (s.ledger.coordinator c).nodes.find? uuid = some n) (hn : n.index < s.ledger.nodes.size)
    (b : OpenRef) :
    ∃ added s', (Request.addRecoveryOn c uuid b).exec s = (.ok (.ok added), s') ∧
      Balanced n s s' [] [] (if added then [b] else []) := by
  obtain ⟨added, s₁, he, hbalanced⟩ := exec_addRecovery hn b
  unfold Request.addRecoveryOn
  rw [Request.exec_bind_ok (Request.exec_registered? ..), hfind]
  simp only
  rw [Request.exec_bind_ok he]
  cases added with
  | true => exact ⟨true, s₁, rfl, hbalanced⟩
  | false => exact ⟨false, _, rfl, hbalanced.transfers, hbalanced.recoveries⟩

theorem balanced_of_worksOn (hl : s.ledger.Orderly) (step : Step) (h : step.Enabled s.ledger)
    (hkeep : ¬ step.Withdraws s.ledger n) (hwork : step.WorksOn s.ledger n) :
    Balanced n s (step.after s) (step.sent n s) (step.transfers n s) (step.recoveries n s) := by
  have hfound : ∀ {c : CoordinatorRef} {uuid : String}, (s.ledger.coordinator c).nodes.find? uuid = some n →
      n.index < s.ledger.nodes.size := fun hfind => hl.held n (Ledger.mem_heldNodes_of_find? hfind)
  cases step with
  | changeNode m change =>
    obtain rfl : m = n := hwork
    exact balanced_changeNode hkeep
  | addTransfer m block targets =>
    obtain rfl : m = n := hwork
    obtain ⟨answer, s', he, hbalanced⟩ := exec_addTransfer (hl.held m h.1) block targets
    rw [transfers, if_pos rfl, after, he]
    cases answer <;> exact hbalanced
  | addRecovery m b =>
    obtain rfl : m = n := hwork
    obtain ⟨added, s', he, hbalanced⟩ := exec_addRecovery (hl.held m h) b
    rw [recoveries, if_pos rfl, after, he]
    cases added <;> exact hbalanced
  | addRecoveryOn c uuid b =>
    have hfind : (s.ledger.coordinator c).nodes.find? uuid = some n := hwork
    obtain ⟨added, s', he, hbalanced⟩ := exec_addRecoveryOn hfind (hfound hfind) b
    rw [recoveries, if_pos hfind, after, he]
    cases added <;> exact hbalanced
  | heartbeat c uuid beat =>
    have hfind : (s.ledger.coordinator c).nodes.find? uuid = some n := hwork
    obtain ⟨answer, s', he, hissued⟩ := Request.exec_heartbeat hfind (hfound hfind) beat
    rw [sent, if_pos hfind, after, he]
    cases answer <;> exact balanced_of_issued hissued
  | clearQueues g m => exact (hkeep hwork).elim
  | removeNode c uuid => exact (hkeep hwork).elim
  | _ => exact hwork.elim

/-- One step keeps the balance, -/
theorem balanced (hl : s.ledger.Orderly) (step : Step) (h : step.Enabled s.ledger)
    (hkeep : ¬ step.Withdraws s.ledger n) :
    Balanced n s (step.after s) (step.sent n s) (step.transfers n s) (step.recoveries n s) := by
  by_cases hwork : step.WorksOn s.ledger n
  · exact balanced_of_worksOn hl step h hkeep hwork
  · exact balanced_of_not_worksOn step h hwork

end Step
open Step (Balanced)

/-- and so do many. -/
theorem Service.balanced {steps : List Step} (hs : Reachable s) (h : s.Legal steps)
    (hkeep : s.Never (fun s step => step.Withdraws s.ledger n) steps) :
    Balanced n s (s.run steps) (s.along (Step.sent n) steps) (s.along (Step.transfers n) steps)
      (s.along (Step.recoveries n) steps) := by
  induction steps generalizing s with
  | nil => exact Step.balanced_of_undisturbed (refl_of (Undisturbed n) s.ledger)
  | cons step steps ih =>
    have hhead := step.balanced hs.orderly h.1 hkeep.1
    have htail := ih (hs.step h.1) h.2 hkeep.2
    unfold Service.along Service.run
    constructor
    · rw [List.flatMap_append, List.append_assoc, htail.transfers, ← List.append_assoc, hhead.transfers,
        List.append_assoc]
    · rw [List.flatMap_append, List.append_assoc, htail.recoveries, ← List.append_assoc, hhead.recoveries,
        List.append_assoc]

/-- Every heartbeat from a node that is in a registry is answered, and the batches of the answer keep to the
limits of that registry. -/
def Service.AnswersInBatches (n : NodeRef) (s : Service) : Prop :=
  ∀ c uuid beat, (s.ledger.coordinator c).nodes.find? uuid = some n →
    ∃ answer, ((Request.heartbeat c uuid beat).exec s).1 = .ok answer ∧
      Batched (s.ledger.coordinator c).limits (answer.toOption.getD [])

theorem Reachable.answersInBatches (h : Reachable s) : s.AnswersInBatches n := by
  intro c uuid beat hfind
  have hn := h.orderly.held n (Ledger.mem_heldNodes_of_find? hfind)
  obtain ⟨answer, s', he, hissued⟩ := Request.exec_heartbeat hfind hn beat
  exact ⟨answer, congrArg Prod.fst he, hissued.batched (h.targeted n)⟩

/-- What heartbeats have brought a node and what still waits for it are what waited at first and what has been
queued since, in the order of the queues. This holds of every run in which no one takes work from the node in
another way. All along, every heartbeat from the node is answered in batches that keep to the limits. -/
theorem heartbeats_conserve_work {steps : List Step} (hs : Reachable s) (h : s.Legal steps) (n : NodeRef)
    (hkeep : s.Never (fun s step => step.Withdraws s.ledger n) steps) :
    ((s.along (Step.sent n) steps).flatMap Command.transfers ++ ((s.run steps).ledger.node n).transfers.items =
      (s.ledger.node n).transfers.items ++ s.along (Step.transfers n) steps) ∧
    ((s.along (Step.sent n) steps).flatMap Command.recoveries ++ ((s.run steps).ledger.node n).recoveries.items =
      (s.ledger.node n).recoveries.items ++ s.along (Step.recoveries n) steps) ∧
    s.Throughout (Service.AnswersInBatches n) steps := by
  have hbalanced := Service.balanced hs h hkeep
  exact ⟨hbalanced.transfers, hbalanced.recoveries, hs.throughout (fun _ hs => hs.answersInBatches) h⟩

/-- Work of both kinds for a node that falls silent and registers again, with a limit of two transfers and one
recovery. One recovery is refused, as its block waits already. -/
def silentNodeSteps : List Step :=
  [.makeCoordinator { maxRecoveryStreams := 1 }, .register ⟨0⟩ (.ofAddress "n" "10.0.0.1" 9866) [{ id := "A" }],
    .makeOpenBlock { block := ⟨7, 70, 1⟩ }, .makeOpenBlock { block := ⟨8, 80, 1⟩ },
    .addTransfer ⟨0⟩ ⟨1, 10, 1⟩ [⟨0⟩], .addRecovery ⟨0⟩ ⟨0⟩, .addTransfer ⟨0⟩ ⟨2, 20, 1⟩ [⟨0⟩],
    .addRecoveryOn ⟨0⟩ "n" ⟨0⟩, .heartbeat ⟨0⟩ "n" {}, .addTransfer ⟨0⟩ ⟨3, 30, 1⟩ [⟨0⟩],
    .checkHeartbeats ⟨0⟩ 1000000, .heartbeat ⟨0⟩ "n" {},
    .register ⟨0⟩ (.ofAddress "n" "10.0.0.2" 9866) [], .heartbeat ⟨0⟩ "n" {}, .addRecoveryOn ⟨0⟩ "n" ⟨1⟩]

/-- The recovery and two of the transfers have been sent, and the others wait. -/
theorem heartbeats_conserve_work_silent :
    (Service.along (Step.sent ⟨0⟩) {} silentNodeSteps).flatMap Command.transfers ++
      ((({} : Service).run silentNodeSteps).ledger.node ⟨0⟩).transfers.items =
        Service.along (Step.transfers ⟨0⟩) {} silentNodeSteps ∧
    (Service.along (Step.sent ⟨0⟩) {} silentNodeSteps).flatMap Command.recoveries ++
      ((({} : Service).run silentNodeSteps).ledger.node ⟨0⟩).recoveries.items =
        Service.along (Step.recoveries ⟨0⟩) {} silentNodeSteps ∧
    (Service.along (Step.sent ⟨0⟩) {} silentNodeSteps).map Command.shown =
      ["recover(1)", "register", "replicate(2)"] ∧
    (Service.along (Step.transfers ⟨0⟩) {} silentNodeSteps).map (·.block.id) = [1, 2, 3] ∧
    Service.along (Step.recoveries ⟨0⟩) {} silentNodeSteps = [⟨0⟩, ⟨1⟩] := by
  have h : Service.Legal {} silentNodeSteps := by decide +kernel
  have hkeep : Service.Never (fun s step => step.Withdraws s.ledger ⟨0⟩) {} silentNodeSteps := by decide +kernel
  obtain ⟨htransfers, hrecoveries, -⟩ := heartbeats_conserve_work (Reachable.start 0) h ⟨0⟩ hkeep
  have hempty : (({} : Service).ledger.node ⟨0⟩).transfers.items = [] ∧
      (({} : Service).ledger.node ⟨0⟩).recoveries.items = [] := ⟨rfl, rfl⟩
  rw [hempty.1, List.nil_append] at htransfers
  rw [hempty.2, List.nil_append] at hrecoveries
  refine ⟨htransfers, hrecoveries, ?_⟩
  decide +kernel

end DatanodeLedger
