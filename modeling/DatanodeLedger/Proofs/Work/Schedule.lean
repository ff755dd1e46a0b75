import DatanodeLedger.Proofs.Registry.Expiry
import DatanodeLedger.Proofs.Registry.Standing
import DatanodeLedger.Proofs.Work.Conservation
import DatanodeLedger.Proofs.Work.Invalidation
import Mathlib.Algebra.Order.Floor.Div

/-! How long it takes until the work that waits for a node has been handed out. Recoveries go first, a batch with each
heartbeat, and transfers and deletions wait until there are none. -/
namespace DatanodeLedger

/-- To take whole batches off a number is to take as many off the number of batches. -/
theorem sub_mul_ceilDiv {a b : Nat} (hb : 0 < b) (k : Nat) : (a - k * b) ⌈/⌉ b = a ⌈/⌉ b - k := by
  refine eq_of_forall_ge_iff fun c => ?_
  rw [ceilDiv_le_iff_le_mul hb, Nat.sub_le_iff_le_add, Nat.sub_le_iff_le_add, ceilDiv_le_iff_le_mul hb,
    Nat.mul_add, Nat.mul_comm k b]

namespace Command

def invalidations : Command → List Block
  | invalidate blocks => blocks
  | _ => []

/-- What an answer brings that is no lease recovery. -/
theorem flatMap_answer (batch : Option (List Transfer)) (blocks : Option (List Block)) (bandwidth : Option UInt64)
    (notice : Bool) :
    let answer := (batch.map replicate).toList ++ (blocks.map invalidate).toList
      ++ (bandwidth.map balancerBandwidth).toList ++ (if notice then [keyUpdate] else [])
    answer.flatMap recoveries = [] ∧ answer.flatMap transfers = batch.getD [] ∧
      answer.flatMap invalidations = blocks.getD [] := by
  cases batch <;> cases blocks <;> cases bandwidth <;> cases notice <;>
    simp [recoveries, transfers, invalidations]

end Command

section distinct
variable {s : Service}

theorem Step.Turned.distinct {l : Ledger} {n : NodeRef} {step : Step} {node : Node} (hturned : step.Turned l n node)
    (h : (l.node n).invalidations.Distinct) : node.invalidations.Distinct := by
  have hempty : ({} : Work.InvalidateSet).Distinct := List.nodup_nil
  cases hturned with
  | changed change =>
    cases change with
    | drainInvalidations max => exact h.drain max
    | _ => exact h
  | invalidations bs => exact h.addAll bs
  | served beat =>
    rcases Node.serve_cases ((l.node n).receive l.now beat) (l.coordinator _).limits with hserve | hserve
    · rw [hserve]
      exact h
    · rw [hserve]
      exact h.drain _
  | reset | cleared | readmitted | removed => exact hempty
  | _ => exact h

/-- No block is pending twice on any node. -/
theorem Reachable.distinct (hs : Reachable s) (n : NodeRef) : (s.ledger.node n).invalidations.Distinct := by
  induction hs generalizing n with
  | start clock => exact List.nodup_nil
  | @step s hs step hstep ih =>
    have hturn := congrArg Node.Standing.invalidations (step.standing_after hs hstep n)
    have hsame : ((step.after s).ledger.node n).invalidations = (step.turn s.ledger n).invalidations := hturn
    rw [hsame]
    exact (step.turned _ n).distinct (ih n)

end distinct

/-- How many heartbeats it takes to hand out the recoveries. -/
def Node.rounds (node : Node) (limits : Limits) : Nat := node.recoveries.size ⌈/⌉ limits.maxRecoveryStreams.toNat

/-- What some heartbeats of a node have drained. What they brought and what still waits is what waited at first, and
as much is left of each kind as the schedule says. -/
structure Drained (limits : Limits) (count : Nat) (node : Node) (sent : List Command) (node' : Node) : Prop where
  recoveries : sent.flatMap Command.recoveries ++ node'.recoveries.items = node.recoveries.items
  transfers : sent.flatMap Command.transfers ++ node'.transfers.items = node.transfers.items
  invalidations :
    (sent.flatMap Command.invalidations ++ node'.invalidations.pending).Perm node.invalidations.pending
  recoveriesLeft : node'.recoveries.size = node.recoveries.size - count * limits.maxRecoveryStreams.toNat
  transfersLeft :
    node'.transfers.size = node.transfers.size - (count - node.rounds limits) * limits.maxReplicationStreams.toNat
  invalidationsLeft : node'.invalidations.size =
    node.invalidations.size - (count - node.rounds limits) * limits.blockInvalidateLimit.toNat
  untouched : count ≤ node.rounds limits →
    node'.transfers = node.transfers ∧ node'.invalidations = node.invalidations

namespace Drained
variable {limits : Limits} {count count' : Nat} {node node' node'' : Node} {sent sent' : List Command}

theorem of_eq (recoveries : node'.recoveries = node.recoveries) (transfers : node'.transfers = node.transfers)
    (invalidations : node'.invalidations = node.invalidations) : Drained limits 0 node [] node' where
  recoveries := congrArg Work.Queue.items recoveries
  transfers := congrArg Work.Queue.items transfers
  invalidations := .of_eq (congrArg Work.InvalidateSet.pending invalidations)
  recoveriesLeft := by rw [recoveries, Nat.zero_mul, Nat.sub_zero]
  transfersLeft := by rw [transfers, Nat.zero_sub, Nat.zero_mul, Nat.sub_zero]
  invalidationsLeft := by rw [invalidations, Nat.zero_sub, Nat.zero_mul, Nat.sub_zero]
  untouched _ := ⟨transfers, invalidations⟩

/-- What heartbeats drain one after the other they drain together. -/
theorem trans (hlimit : 0 < limits.maxRecoveryStreams.toNat) (h : Drained limits count node sent node')
    (h' : Drained limits count' node' sent' node'') :
    Drained limits (count + count') node (sent ++ sent') node'' := by
  have hrounds : node'.rounds limits = node.rounds limits - count := by
    unfold Node.rounds
    rw [h.recoveriesLeft, sub_mul_ceilDiv hlimit]
  have hover : count - node.rounds limits + (count' - node'.rounds limits) = count + count' - node.rounds limits := by
    omega
  constructor
  case recoveries => rw [List.flatMap_append, List.append_assoc, h'.recoveries, h.recoveries]
  case transfers => rw [List.flatMap_append, List.append_assoc, h'.transfers, h.transfers]
  case invalidations =>
    rw [List.flatMap_append, List.append_assoc]
    exact (h'.invalidations.append_left _).trans h.invalidations
  case recoveriesLeft => rw [h'.recoveriesLeft, h.recoveriesLeft, Nat.sub_sub, ← Nat.add_mul]
  case transfersLeft => rw [h'.transfersLeft, h.transfersLeft, Nat.sub_sub, ← Nat.add_mul, hover]
  case invalidationsLeft => rw [h'.invalidationsLeft, h.invalidationsLeft, Nat.sub_sub, ← Nat.add_mul, hover]
  case untouched =>
    intro hcount
    obtain ⟨htransfers, hinvalidations⟩ := h.untouched (by omega)
    obtain ⟨htransfers', hinvalidations'⟩ := h'.untouched (by omega)
    exact ⟨htransfers'.trans htransfers, hinvalidations'.trans hinvalidations⟩

/-- One heartbeat hands out a batch of recoveries, -/
private theorem serve_of_some (hlimit : 0 < limits.maxRecoveryStreams.toNat) {blocks : List OpenRef}
    (hpoll : (node.recoveries.poll limits.maxRecoveryStreams.toNat).1 = some blocks) :
    Drained limits 1 node (node.serve limits).1 (node.serve limits).2.2 := by
  have happend := node.recoveries.poll_append limits.maxRecoveryStreams.toNat
  have hrounds : 1 ≤ node.rounds limits := by
    by_contra hzero
    have hsize : node.recoveries.size ≤ 0 := by
      have hle : node.rounds limits ≤ 0 := by omega
      exact (ceilDiv_le_iff_le_mul hlimit).1 hle
    have hnil : node.recoveries.items = [] := List.length_eq_zero_iff.1 (Nat.le_zero.1 hsize)
    rw [((Work.Queue.poll_eq_none_iff _ _).2 (.inr hnil))] at hpoll
    cases hpoll
  rw [hpoll] at happend
  rw [Node.serve_of_some hpoll]
  refine ⟨?_, rfl, .refl _, ?_, ?_, ?_, fun _ => ⟨rfl, rfl⟩⟩
  · rw [List.flatMap_cons, List.flatMap_nil, List.append_nil]
    exact happend
  · rw [Nat.one_mul]
    exact node.recoveries.size_poll _
  · rw [Nat.sub_eq_zero_of_le hrounds, Nat.zero_mul, Nat.sub_zero]
  · rw [Nat.sub_eq_zero_of_le hrounds, Nat.zero_mul, Nat.sub_zero]

/-- or where there are none a batch of transfers and one of deletions. -/
private theorem serve_of_none (hlimit : 0 < limits.maxRecoveryStreams.toNat) (hdistinct : node.invalidations.Distinct)
    (hpoll : (node.recoveries.poll limits.maxRecoveryStreams.toNat).1 = none) :
    Drained limits 1 node (node.serve limits).1 (node.serve limits).2.2 := by
  obtain ⟨hsent, hnode⟩ := Node.serve_of_none hpoll
  have hnil : node.recoveries.items = [] :=
    ((Work.Queue.poll_eq_none_iff _ _).1 hpoll).resolve_left (Nat.ne_of_gt hlimit)
  have hsize : node.recoveries.size = 0 := congrArg List.length hnil
  have hrounds : node.rounds limits = 0 := by
    unfold Node.rounds
    rw [hsize, zero_ceilDiv]
  obtain ⟨hrecoveriesSent, htransfersSent, hinvalidationsSent⟩ := Command.flatMap_answer
    (node.transfers.poll limits.maxReplicationStreams.toNat).1
    (node.invalidations.drain limits.blockInvalidateLimit.toNat).1 node.takeBandwidth.1 node.keyUpdate
  rw [hsent, hnode]
  constructor
  case recoveries => rw [hrecoveriesSent, List.nil_append]
  case transfers =>
    rw [htransfersSent]
    exact node.transfers.poll_append limits.maxReplicationStreams.toNat
  case invalidations =>
    rw [hinvalidationsSent]
    exact hdistinct.drain_append limits.blockInvalidateLimit.toNat
  case recoveriesLeft => rw [hsize, Nat.zero_sub]
  case transfersLeft =>
    rw [hrounds, Nat.sub_zero, Nat.one_mul]
    exact node.transfers.size_poll _
  case invalidationsLeft =>
    rw [hrounds, Nat.sub_zero, Nat.one_mul]
    exact hdistinct.size_drain limits.blockInvalidateLimit.toNat
  case untouched => exact fun hcount => absurd hcount (by omega)

theorem serve (hlimit : 0 < limits.maxRecoveryStreams.toNat) (hdistinct : node.invalidations.Distinct) :
    Drained limits 1 node (node.serve limits).1 (node.serve limits).2.2 := by
  cases hpoll : (node.recoveries.poll limits.maxRecoveryStreams.toNat).1 with
  | some blocks => exact serve_of_some hlimit hpoll
  | none => exact serve_of_none hlimit hdistinct hpoll

theorem of_standing (hsame : node'.standing = node.standing) : Drained limits 0 node [] node' :=
  of_eq (congrArg Node.Standing.recoveries hsame) (congrArg Node.Standing.transfers hsame)
    (congrArg Node.Standing.invalidations hsame)

end Drained

/-- The changes of a node that have to do with its work, its life and whether it is allowed. -/
def Node.Change.Meddles : Node.Change → Prop
  | alive _ | disallowed _ | pollTransfers _ | pollRecoveries _ | drainInvalidations _ => True
  | _ => False

instance (change : Node.Change) : Decidable change.Meddles := by
  rcases change <;> unfold Node.Change.Meddles <;> infer_instance

namespace Step
variable {s : Service} {c : CoordinatorRef} {uuid : String} {n : NodeRef}

/-- The heartbeats that come in under a uuid. -/
def beats (c : CoordinatorRef) (uuid : String) : Step → Bool
  | heartbeat k id _ => k = c ∧ id = uuid
  | _ => false

/-- The steps besides its heartbeats that have to do with the work of a node: submissions, resets, deaths, and those
by which others take its work, let it in or out, or forget it. -/
def Interferes (c : CoordinatorRef) (uuid : String) (n : NodeRef) (s : Service) : Step → Prop
  | addTransfer m .. | addRecovery m _ | addInvalidations m _ | resetBlocks _ m | clearQueues _ m => m = n
  | changeNode m change => m = n ∧ change.Meddles
  | register k r _ => k = c ∧ r.uuid = uuid
  | removeNode k id | addRecoveryOn k id _ => k = c ∧ id = uuid
  | dropCoordinator k => k = c
  | checkHeartbeats k now => k = c ∧ s.ledger.Overdue c now n
  | _ => False

instance (s : Service) (step : Step) : Decidable (step.Interferes c uuid n s) := by
  rcases step <;> unfold Interferes Ledger.Overdue <;> infer_instance

/-- A node with the same work that is as alive and as allowed. -/
structure SameWork (node node' : Node) : Prop where
  alive : node'.alive = node.alive
  disallowed : node'.disallowed = node.disallowed
  recoveries : node'.recoveries = node.recoveries
  transfers : node'.transfers = node.transfers
  invalidations : node'.invalidations = node.invalidations

theorem SameWork.refl (node : Node) : SameWork node node := ⟨rfl, rfl, rfl, rfl, rfl⟩

/-- A node is found by one coordinator under one uuid. -/
theorem found_iff (h : s.ledger.Enrolled) (hfind : (s.ledger.coordinator c).nodes.find? uuid = some n)
    {k : CoordinatorRef} {id : String} :
    (s.ledger.coordinator k).nodes.find? id = some n ↔ k = c ∧ id = uuid := by
  refine ⟨fun hfound => ?_, fun ⟨hk, hid⟩ => hk ▸ hid ▸ hfind⟩
  exact ⟨h.apart k c id uuid n hfound hfind, (h.uuid k id n hfound).symm.trans (h.uuid c uuid n hfind)⟩

/-- A step that neither interferes with the work of a node nor is its heartbeat leaves it alone. -/
theorem Turned.sameWork (h : s.ledger.Enrolled) (hfind : (s.ledger.coordinator c).nodes.find? uuid = some n)
    {step : Step} {node : Node} (hturned : step.Turned s.ledger n node) (hkeep : ¬ step.Interferes c uuid n s)
    (hbeat : step.beats c uuid = false) : SameWork (s.ledger.node n) node := by
  cases hturned with
  | untouched | bandwidth | keyUpdate => exact ⟨rfl, rfl, rfl, rfl, rfl⟩
  | changed change =>
    cases change with
    | alive _ | disallowed _ | pollTransfers _ | pollRecoveries _ | drainInvalidations _ =>
      exact (hkeep ⟨rfl, trivial⟩).elim
    | _ => exact ⟨rfl, rfl, rfl, rfl, rfl⟩
  | transfer | recovery | invalidations | reset | cleared => exact (hkeep rfl).elim
  | entered hnew =>
    subst hnew
    exact (Nat.lt_irrefl _ (h.made c uuid _ hfind)).elim
  | readmitted hfound | removed hfound | recoveryOn _ hfound => exact (hkeep ((found_iff h hfind).1 hfound)).elim
  | served beat hfound => exact (of_decide_eq_false hbeat ((found_iff h hfind).1 hfound)).elim
  | expired hexpiry hmem =>
    have hover := (Ledger.mem_expired_iff (Limits.toNat_of_expiry hexpiry)).1 hmem
    obtain ⟨rfl, -⟩ := (found_iff h hfind).1 (h.mem_values_iff.1 hover.1)
    exact (hkeep ⟨rfl, hover⟩).elim

theorem sent_of_not_beats (h : s.ledger.Enrolled) (hfind : (s.ledger.coordinator c).nodes.find? uuid = some n)
    {step : Step} (hbeat : step.beats c uuid = false) : step.sent n s = [] := by
  cases step with
  | heartbeat k id beat =>
    exact if_neg fun hfound => of_decide_eq_false hbeat ((found_iff h hfind).1 hfound)
  | _ => rfl

end Step

namespace Service
variable {s : Service} {c : CoordinatorRef} {uuid : String} {n : NodeRef}

/-- A node that is alive and allowed, and found under a uuid. -/
structure Attends (c : CoordinatorRef) (uuid : String) (n : NodeRef) (s : Service) : Prop where
  found : (s.ledger.coordinator c).nodes.find? uuid = some n
  alive : (s.ledger.node n).alive = true
  allowed : (s.ledger.node n).disallowed = false

/-- A heartbeat is answered, and drains what one round of the schedule does. -/
theorem Attends.drained_heartbeat (h : s.Attends c uuid n) (hs : Reachable s)
    (hlimit : 0 < (s.ledger.coordinator c).limits.maxRecoveryStreams.toNat) (beat : Heartbeat) :
    Drained (s.ledger.coordinator c).limits 1 (s.ledger.node n) ((Step.heartbeat c uuid beat).sent n s)
      ((Step.heartbeat c uuid beat).turn s.ledger n) := by
  let known := (s.ledger.node n).receive s.ledger.now beat
  have hmade := hs.enrolled.made c uuid n h.found
  obtain ⟨journal, he⟩ := Request.exec_heartbeat_of_live h.found hmade h.allowed h.alive beat
  have hsent : (Step.heartbeat c uuid beat).sent n s = (known.serve (s.ledger.coordinator c).limits).1 := by
    rw [Step.sent, if_pos h.found, he]
  have hturn : (Step.heartbeat c uuid beat).turn s.ledger n = (known.serve (s.ledger.coordinator c).limits).2.2 :=
    if_pos ⟨h.found, h.allowed, h.alive⟩
  have hserve : Drained (s.ledger.coordinator c).limits 1 known _ _ := .serve hlimit (hs.distinct n)
  rw [hsent, hturn]
  exact ⟨hserve.recoveries, hserve.transfers, hserve.invalidations, hserve.recoveriesLeft, hserve.transfersLeft,
    hserve.invalidationsLeft, hserve.untouched⟩

/-- One step: the node attends still, and its work is drained if the step is its heartbeat. -/
theorem Attends.after (h : s.Attends c uuid n) (hs : Reachable s)
    (hlimit : 0 < (s.ledger.coordinator c).limits.maxRecoveryStreams.toNat) {step : Step}
    (hstep : step.Enabled s.ledger) (hkeep : ¬ step.Interferes c uuid n s) :
    (step.after s).Attends c uuid n ∧ Drained (s.ledger.coordinator c).limits (if step.beats c uuid then 1 else 0)
      (s.ledger.node n) (step.sent n s) ((step.after s).ledger.node n) := by
  have hstanding := step.standing_after hs hstep n
  have halive : ((step.after s).ledger.node n).alive = (step.turn s.ledger n).alive :=
    congrArg Node.Standing.alive hstanding
  have hallowed : ((step.after s).ledger.node n).disallowed = (step.turn s.ledger n).disallowed :=
    congrArg Node.Standing.disallowed hstanding
  have hfound : ((step.after s).ledger.coordinator c).nodes.find? uuid = some n := by
    refine Step.find?_after hs hstep (fun hremove => hkeep ?_) (fun hdrop => hkeep ?_) h.found
    · subst hremove
      exact ⟨rfl, rfl⟩
    · subst hdrop
      rfl
  have hrest : Drained (s.ledger.coordinator c).limits 0 (step.turn s.ledger n) [] _ := .of_standing hstanding
  cases hbeat : step.beats c uuid with
  | false =>
    have hsame := (step.turned s.ledger n).sameWork hs.enrolled h.found hkeep hbeat
    rw [Step.sent_of_not_beats hs.enrolled h.found hbeat]
    refine ⟨⟨hfound, halive.trans (hsame.alive.trans h.alive), hallowed.trans (hsame.disallowed.trans h.allowed)⟩, ?_⟩
    exact (Drained.of_eq hsame.recoveries hsame.transfers hsame.invalidations).trans hlimit hrest
  | true =>
    cases step with
    | heartbeat k id beat =>
      obtain ⟨rfl, rfl⟩ : k = c ∧ id = uuid := of_decide_eq_true hbeat
      have hturn : (Step.heartbeat k id beat).turn s.ledger n =
          (((s.ledger.node n).receive s.ledger.now beat).serve (s.ledger.coordinator k).limits).2.2 :=
        if_pos ⟨h.found, h.allowed, h.alive⟩
      have hdrained := (h.drained_heartbeat hs hlimit beat).trans hlimit hrest
      rw [List.append_nil] at hdrained
      rw [hturn] at halive hallowed
      exact ⟨⟨hfound, halive.trans (Node.serve_life.1.trans h.alive),
        hallowed.trans (Node.serve_life.2.1.trans h.allowed)⟩, hdrained⟩
    | _ => cases hbeat

/-- In a run without interference, the work is drained round by round. -/
theorem Attends.run (h : s.Attends c uuid n) (hs : Reachable s) {limits : Limits}
    (hlimits : (s.ledger.coordinator c).limits = limits) (hlimit : 0 < limits.maxRecoveryStreams.toNat)
    {steps : List Step} (hsteps : s.Legal steps)
    (hkeep : s.Never (fun s step => step.Interferes c uuid n s) steps) :
    Drained limits (steps.countP (Step.beats c uuid)) (s.ledger.node n) (s.along (Step.sent n) steps)
      ((s.run steps).ledger.node n) := by
  induction steps generalizing s with
  | nil => exact .of_standing rfl
  | cons step steps ih =>
    obtain ⟨hattends, hdrained⟩ := h.after hs (hlimits ▸ hlimit) hsteps.1 hkeep.1
    have hsame : ((step.after s).ledger.coordinator c).limits = limits :=
      ((step.keepsTerms_after hsteps.1).limits c (Ledger.lt_size_of_find? h.found)).trans hlimits
    have hrest := ih hattends (hs.step hsteps.1) hsame hsteps.2 hkeep.2
    have hall := (hlimits ▸ hdrained).trans hlimit hrest
    rw [List.countP_cons, Nat.add_comm]
    exact hall

end Service
section handed
variable {α : Type} {limits : Limits} {count : Nat} {node node' : Node} {sent : List Command}

theorem eq_iff_of_append {xs ys zs : List α} (h : xs ++ ys = zs) : xs = zs ↔ ys.length = 0 := by
  rw [← h, List.length_eq_zero_iff]
  exact List.self_eq_append_right

theorem perm_iff_of_append {xs ys zs : List α} (h : (xs ++ ys).Perm zs) : xs.Perm zs ↔ ys.length = 0 := by
  constructor
  · intro hperm
    have htotal := h.length_eq
    rw [List.length_append, hperm.length_eq] at htotal
    omega
  · intro hnil
    rwa [List.length_eq_zero_iff.1 hnil, List.append_nil] at h

theorem sub_mul_eq_zero_iff {a b k : Nat} (hb : 0 < b) : a - k * b = 0 ↔ a ⌈/⌉ b ≤ k := by
  rw [Nat.sub_eq_zero_iff_le, ceilDiv_le_iff_le_mul hb, Nat.mul_comm]

/-- Everything has been handed out when the last round is over, and not before. -/
theorem Drained.handed_iff (h : Drained limits count node sent node')
    (hvalid : limits.validate = .ok ()) :
    (sent.flatMap Command.recoveries = node.recoveries.items ∧
      sent.flatMap Command.transfers = node.transfers.items ∧
      (sent.flatMap Command.invalidations).Perm node.invalidations.pending) ↔
    node.rounds limits + max (node.transfers.size ⌈/⌉ limits.maxReplicationStreams.toNat)
      (node.invalidations.size ⌈/⌉ limits.blockInvalidateLimit.toNat) ≤ count := by
  obtain ⟨htransfers, hrecoveries, hinvalidations, -⟩ := Limits.validate_eq_ok_iff.1 hvalid
  have hr : sent.flatMap Command.recoveries = node.recoveries.items ↔ node.rounds limits ≤ count := by
    rw [eq_iff_of_append h.recoveries]
    exact (Eq.congr_left h.recoveriesLeft).trans (sub_mul_eq_zero_iff hrecoveries)
  have ht : sent.flatMap Command.transfers = node.transfers.items ↔
      node.transfers.size ⌈/⌉ limits.maxReplicationStreams.toNat ≤ count - node.rounds limits := by
    rw [eq_iff_of_append h.transfers]
    exact (Eq.congr_left h.transfersLeft).trans (sub_mul_eq_zero_iff htransfers)
  have hi : (sent.flatMap Command.invalidations).Perm node.invalidations.pending ↔
      node.invalidations.size ⌈/⌉ limits.blockInvalidateLimit.toNat ≤ count - node.rounds limits := by
    rw [perm_iff_of_append h.invalidations]
    exact (Eq.congr_left h.invalidationsLeft).trans (sub_mul_eq_zero_iff hinvalidations)
  rw [hr, ht, hi]
  omega

end handed

/-- The schedule by which the work that waits for a node is handed out, where the limits of its coordinator are valid.
The run takes any steps that do not interfere: heartbeats of the node with any contents, and whatever happens to others.

As long as there were no more heartbeats than it takes to hand out the recoveries, each took a full batch of them as
far as there were so many, and the transfers and deletions wait untouched. Every further heartbeat took a batch of
transfers and one of deletions. What was sent and what waits still is what waited at first; all of it has been sent
when the longer of the two has come to its end, and not earlier. -/
theorem drain_schedule {s : Service} (hs : Reachable s) {c : CoordinatorRef} {uuid : String} {n : NodeRef}
    (h : s.Attends c uuid n) (hvalid : (s.ledger.coordinator c).limits.validate = .ok ()) {steps : List Step}
    (hsteps : s.Legal steps) (hkeep : s.Never (fun s step => step.Interferes c uuid n s) steps) :
    let limits := (s.ledger.coordinator c).limits
    let node := s.ledger.node n
    let later := (s.run steps).ledger.node n
    let sent := s.along (Step.sent n) steps
    let count := steps.countP (Step.beats c uuid)
    let rounds := node.recoveries.size ⌈/⌉ limits.maxRecoveryStreams.toNat
    (count ≤ rounds →
      later.recoveries.size = node.recoveries.size - count * limits.maxRecoveryStreams.toNat ∧
      later.transfers = node.transfers ∧ later.invalidations = node.invalidations) ∧
    (rounds < count →
      later.recoveries.size = 0 ∧
      later.transfers.size = node.transfers.size - (count - rounds) * limits.maxReplicationStreams.toNat ∧
      later.invalidations.size = node.invalidations.size - (count - rounds) * limits.blockInvalidateLimit.toNat) ∧
    (sent.flatMap Command.recoveries ++ later.recoveries.items = node.recoveries.items ∧
      sent.flatMap Command.transfers ++ later.transfers.items = node.transfers.items ∧
      (sent.flatMap Command.invalidations ++ later.invalidations.pending).Perm node.invalidations.pending) ∧
    ((sent.flatMap Command.recoveries = node.recoveries.items ∧
      sent.flatMap Command.transfers = node.transfers.items ∧
      (sent.flatMap Command.invalidations).Perm node.invalidations.pending) ↔
        rounds + max (node.transfers.size ⌈/⌉ limits.maxReplicationStreams.toNat)
          (node.invalidations.size ⌈/⌉ limits.blockInvalidateLimit.toNat) ≤ count) := by
  intro limits node later sent count rounds
  have hlimit : 0 < limits.maxRecoveryStreams.toNat := (Limits.validate_eq_ok_iff.1 hvalid).2.1
  have hdrained : Drained limits count node sent later := h.run hs rfl hlimit hsteps hkeep
  refine ⟨fun hcount => ?_, fun hcount => ?_, ?_, hdrained.handed_iff hvalid⟩
  · exact ⟨hdrained.recoveriesLeft, hdrained.untouched hcount⟩
  · have hnone : later.recoveries.size = 0 :=
      hdrained.recoveriesLeft.trans ((sub_mul_eq_zero_iff hlimit).2 (Nat.le_of_lt hcount))
    exact ⟨hnone, hdrained.transfersLeft, hdrained.invalidationsLeft⟩
  · exact ⟨hdrained.recoveries, hdrained.transfers, hdrained.invalidations⟩

/-- Three of each kind wait for a node, with limits of two. -/
def backlog : List Step :=
  [.makeCoordinator { blockInvalidateLimit := 2 }, .register ⟨0⟩ (.ofAddress "n" "10.0.0.1" 9866) [{ id := "A" }],
    .makeOpenBlock { block := ⟨7, 70, 1⟩ }, .makeOpenBlock { block := ⟨8, 80, 1⟩ },
    .makeOpenBlock { block := ⟨9, 90, 1⟩ }, .addRecovery ⟨0⟩ ⟨0⟩, .addRecovery ⟨0⟩ ⟨1⟩, .addRecovery ⟨0⟩ ⟨2⟩,
    .addTransfer ⟨0⟩ ⟨1, 10, 1⟩ [⟨0⟩], .addTransfer ⟨0⟩ ⟨2, 20, 1⟩ [⟨0⟩], .addTransfer ⟨0⟩ ⟨3, 30, 1⟩ [⟨0⟩],
    .addInvalidations ⟨0⟩ [⟨4, 40, 1⟩, ⟨5, 50, 1⟩, ⟨6, 60, 1⟩]]

/-- Two heartbeats for the recoveries, and two more for the rest; others come and go meanwhile. -/
def fourBeats : List Step :=
  [.heartbeat ⟨0⟩ "n" {}, .register ⟨0⟩ (.ofAddress "m" "10.0.0.2" 9866) [], .heartbeat ⟨0⟩ "n" { transfers := 1 },
    .setBandwidth ⟨0⟩ 5, .heartbeat ⟨0⟩ "n" {}, .checkHeartbeats ⟨0⟩ 0, .heartbeat ⟨0⟩ "n" {}]

/-- After three of the four, one transfer and one deletion wait still. -/
theorem drain_schedule_of_backlog :
    let s := ({} : Service).run backlog
    let later := (s.run (fourBeats.take 5)).ledger.node ⟨0⟩
    (later.recoveries.size = 0 ∧ later.transfers.size = 3 - (3 - 2) * 2 ∧ later.invalidations.size = 3 - (3 - 2) * 2) ∧
    ((s.along (Step.sent ⟨0⟩) fourBeats).flatMap Command.transfers = (s.ledger.node ⟨0⟩).transfers.items) ∧
    (s.along (Step.sent ⟨0⟩) fourBeats).map Command.name =
      ["recover", "recover", "replicate", "invalidate", "balancer_bandwidth", "replicate", "invalidate"] := by
  intro s later
  have hs : Reachable s := (Reachable.start 0).run (by decide +kernel)
  have hattends : s.Attends ⟨0⟩ "n" ⟨0⟩ := ⟨by decide +kernel, by decide +kernel, by decide +kernel⟩
  have hvalid : (s.ledger.coordinator ⟨0⟩).limits.validate = .ok () := by decide +kernel
  have hsteps : s.Legal fourBeats ∧ s.Legal (fourBeats.take 5) := by decide +kernel
  have hthree := drain_schedule hs hattends hvalid hsteps.2 (by decide +kernel)
  have hfour := drain_schedule hs hattends hvalid hsteps.1 (by decide +kernel)
  have hsizes : (s.ledger.coordinator ⟨0⟩).limits.maxReplicationStreams.toNat = 2 ∧
      (s.ledger.coordinator ⟨0⟩).limits.blockInvalidateLimit.toNat = 2 ∧
      (s.ledger.node ⟨0⟩).recoveries.size ⌈/⌉ (s.ledger.coordinator ⟨0⟩).limits.maxRecoveryStreams.toNat = 2 ∧
      (s.ledger.node ⟨0⟩).transfers.size = 3 ∧ (s.ledger.node ⟨0⟩).invalidations.size = 3 ∧
      (fourBeats.take 5).countP (Step.beats ⟨0⟩ "n") = 3 := by decide +kernel
  obtain ⟨hP, hI, hrounds, htransfers, hinvalidations, hcount⟩ := hsizes
  have hleft := hthree.2.1
  rw [hP, hI, hrounds, htransfers, hinvalidations, hcount] at hleft
  exact ⟨hleft (by decide), (hfour.2.2.2.2 (by decide +kernel)).2.1, by decide +kernel⟩

end DatanodeLedger
