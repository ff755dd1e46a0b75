import DatanodeLedger.Proofs.Registry.Beats
import DatanodeLedger.Proofs.Registry.Gauges
import DatanodeLedger.Proofs.Registry.Housed

/-! What a coordinator does in the name of one node, as operations of one kind, and what each comes to in closed
form. -/
namespace DatanodeLedger

inductive Operation where
  | register (r : Registration) (storages : List Announcement)
  | remove (uuid : String)
  | heartbeat (uuid : String) (h : Heartbeat)
  | report (uuid id : String) (b : BlockRef)
  | recover (uuid : String) (b : OpenRef)

/-- What an operation answers. -/
inductive Answer where
  | registered (n : NodeRef)
  | removed (n : Option NodeRef)
  | commands (commands : Except Error (List Command))
  | changed (changed : Except Error Bool)

namespace Operation

/-- The node in whose name an operation is. -/
def uuid : Operation → String
  | register r _ => r.uuid
  | remove uuid | heartbeat uuid _ | report uuid _ _ | recover uuid _ => uuid

def request (c : CoordinatorRef) : Operation → Request Answer
  | register r storages => do pure (.registered (← Request.register c r storages))
  | remove uuid => do pure (.removed (← Request.removeNode c uuid))
  | heartbeat uuid h => do pure (.commands (← Request.heartbeat c uuid h))
  | report uuid id b => do pure (.changed (← Request.addReportedBlock c uuid id b))
  | recover uuid b => do pure (.changed (← Request.addRecoveryOn c uuid b))

def step (c : CoordinatorRef) : Operation → Step
  | register r storages => .register c r storages
  | remove uuid => .removeNode c uuid
  | heartbeat uuid h => .heartbeat c uuid h
  | report uuid id b => .addReportedBlock c uuid id b
  | recover uuid b => .addRecoveryOn c uuid b

end Operation

namespace Ledger
variable {l : Ledger} {c : CoordinatorRef} {n : NodeRef} {v : StorageRef} {b : BlockRef} {uuid : String}

/-- Whether a volume takes a block in, and the ledger after that. -/
def takeIn (l : Ledger) (v : StorageRef) (b : BlockRef) : Bool × Ledger :=
  match l.attach v b with
  | .ok r => r
  | .error _ => (false, l)

/-- Whether a block gets onto a volume of a node, and the ledger after that. It is taken off another one. -/
def place (l : Ledger) (uuid : String) (v : StorageRef) (b : BlockRef) : Bool × Ledger :=
  match l.holderOn? b uuid with
  | none => l.takeIn v b
  | some s => if s = v then (false, l) else (l.dropBlock uuid b).takeIn v b

/-- Whether a recovery is queued on a node, and the recoveries that are queued then. -/
def offer (l : Ledger) (n : NodeRef) (b : OpenRef) : Bool × Work.Queue OpenRef :=
  (l.node n).recoveries.offerIfAbsent (fun a b => (l.openBlock a).block.same (l.openBlock b).block) b

/-- The ledger after a recovery has been queued on a node, or counted as one that was queued already. -/
def queue (l : Ledger) (c : CoordinatorRef) (n : NodeRef) (b : OpenRef) : Ledger :=
  if (l.offer n b).1 then l.modifyNode n fun node => { node with recoveries := (l.offer n b).2 }
  else l.count c [(.duplicateRecoverySubmissions, 1)]

theorem Coherent.attach_eq (h : l.Coherent) (hv : v.index < l.storages.size) (hlive : l.isLive v = true)
    (hb : b.index < l.blocks.size) : l.attach v b = .ok (l.takeIn v b) := by
  have hok : ∃ r, l.attach v b = .ok r := by
    by_cases ho : l.Occupied v b
    · exact ⟨_, h.attach_refused ho⟩
    · obtain ⟨l', he, -⟩ := h.attach hv hlive hb ho
      exact ⟨_, he⟩
  obtain ⟨r, hr⟩ := hok
  unfold takeIn
  simp only [hr]

end Ledger

namespace Ledger
variable (l : Ledger) (c : CoordinatorRef) (uuid : String)

def register (r : Registration) (storages : List Announcement) : NodeRef × Ledger :=
  match (l.coordinator c).nodes.find? r.uuid with
  | none => (⟨l.nodes.size⟩, (l.enroll c r).settle c ⟨l.nodes.size⟩ storages)
  | some n => (n, (l.welcome c n r).settle c n storages)

def remove : Option NodeRef × Ledger :=
  match (l.coordinator c).nodes.find? uuid with
  | none => (none, l)
  | some n => (some n, (l.strip c n).dismiss c uuid n)

def heartbeat (h : Heartbeat) : Except Error (List Command) × Ledger :=
  match (l.coordinator c).nodes.find? uuid with
  | none => (.error (.unregisteredDatanode uuid), l.count c [(.rejectedHeartbeats, 1)])
  | some n =>
    if (l.node n).disallowed then (.error (.disallowedDatanode uuid), l.count c [(.rejectedHeartbeats, 1)])
    else if (l.node n).alive then
      (.ok (((l.node n).receive l.now h).serve (l.coordinator c).limits).1, l.beat c n h)
    else (.ok [.register], l.count c [(.heartbeatsTotal, 1)])

def report (id : String) (b : BlockRef) : Except Error Bool × Ledger :=
  match (l.coordinator c).nodes.find? uuid with
  | none => (.error (.unregisteredDatanode uuid), l)
  | some n =>
    match l.storageOf? n id with
    | none => (.error (.unknownStorage uuid id), l)
    | some v =>
      let placed := (l.take (l.coordinator c).lock).place uuid v b
      (.ok placed.1, placed.2.release (l.coordinator c).lock)

def recover (b : OpenRef) : Except Error Bool × Ledger :=
  match (l.coordinator c).nodes.find? uuid with
  | none => (.error (.unregisteredDatanode uuid), l)
  | some n => (.ok (l.offer n b).1, l.queue c n b)

end Ledger

/-- What an operation comes to: its answer, and the ledger after it. -/
def Operation.outcome (c : CoordinatorRef) (l : Ledger) : Operation → Answer × Ledger
  | register r storages => (.registered (l.register c r storages).1, (l.register c r storages).2)
  | remove uuid => (.removed (l.remove c uuid).1, (l.remove c uuid).2)
  | heartbeat uuid h => (.commands (l.heartbeat c uuid h).1, (l.heartbeat c uuid h).2)
  | report uuid id b => (.changed (l.report c uuid id b).1, (l.report c uuid id b).2)
  | recover uuid b => (.changed (l.recover c uuid b).1, (l.recover c uuid b).2)

namespace Request
variable {s : Service} {c : CoordinatorRef} {n : NodeRef} {uuid : String}

/-- None of the operations comes upon a fault. -/
theorem exec_register_eq (h : s.ledger.Enrolled) (r : Registration) (storages : List Announcement) :
    ∃ journal, (register c r storages).exec s =
      (.ok (s.ledger.register c r storages).1, ⟨(s.ledger.register c r storages).2, journal⟩) := by
  unfold Ledger.register
  cases hn : (s.ledger.coordinator c).nodes.find? r.uuid with
  | none => exact exec_register_of_none r storages hn
  | some n => exact exec_register_of_some h storages hn

theorem exec_removeNode_eq (hl : s.ledger.Coherent) (h : s.ledger.Enrolled) (uuid : String) :
    ∃ journal, (removeNode c uuid).exec s =
      (.ok (s.ledger.remove c uuid).1, ⟨(s.ledger.remove c uuid).2, journal⟩) := by
  unfold Ledger.remove
  cases hn : (s.ledger.coordinator c).nodes.find? uuid with
  | none => exact ⟨s.journal, exec_removeNode_of_none hn⟩
  | some n => exact exec_removeNode_of_some hl h hn

theorem exec_heartbeat_eq (h : s.ledger.Enrolled) (uuid : String) (beat : Heartbeat) :
    ∃ journal, (heartbeat c uuid beat).exec s =
      (.ok (s.ledger.heartbeat c uuid beat).1, ⟨(s.ledger.heartbeat c uuid beat).2, journal⟩) := by
  unfold Ledger.heartbeat
  cases hn : (s.ledger.coordinator c).nodes.find? uuid with
  | none => exact ⟨s.journal, exec_heartbeat_of_none hn beat⟩
  | some n =>
    simp only
    cases hallowed : (s.ledger.node n).disallowed with
    | true =>
      simp only [if_true]
      exact exec_heartbeat_of_disallowed hn hallowed beat
    | false =>
      simp only [Bool.false_eq_true, if_false]
      cases halive : (s.ledger.node n).alive with
      | true =>
        simp only [if_true]
        exact exec_heartbeat_of_live hn (h.made c uuid n hn) hallowed halive beat
      | false =>
        simp only [Bool.false_eq_true, if_false]
        exact ⟨s.journal, exec_heartbeat_of_dead hn hallowed halive beat⟩

theorem exec_addRecoveryOn_eq (uuid : String) (b : OpenRef) :
    ∃ journal, (addRecoveryOn c uuid b).exec s =
      (.ok (s.ledger.recover c uuid b).1, ⟨(s.ledger.recover c uuid b).2, journal⟩) := by
  unfold addRecoveryOn Ledger.recover
  rw [exec_bind_ok (exec_registered? ..)]
  cases hn : (s.ledger.coordinator c).nodes.find? uuid with
  | none => exact ⟨s.journal, rfl⟩
  | some n =>
    have hoffer : (s.ledger.node n).recoveries.offerIfAbsent
        (fun a b => (s.ledger.openBlock a).block.same (s.ledger.openBlock b).block) b = s.ledger.offer n b := rfl
    unfold addRecovery Ledger.queue
    simp only
    rw [exec_bind, exec_bind_ok (exec_ledger _)]
    simp only [hoffer]
    cases hadded : (s.ledger.offer n b).1 with
    | true =>
      simp only [if_true]
      exact ⟨_, rfl⟩
    | false =>
      simp only [Bool.false_eq_true, if_false]
      exact ⟨_, rfl⟩

/-- Under the lock that it is tied to, a node gets a block onto one of its volumes. -/
theorem exec_addBlock_of_tied {l : Ledger} {g : Guard} {id : String} {v : StorageRef} {b : BlockRef} (hl : l.Coherent)
    (hn : n ∈ l.heldNodes) (htied : (l.node n).lock = some g.lock) (hb : b.index < l.blocks.size)
    (hv : l.storageOf? n id = some v) (journal : List Event) :
    ∃ journal', (addBlock g n id b).exec ⟨l, journal⟩ =
      (.ok (l.place (l.node n).uuid v b).1, ⟨(l.place (l.node n).uuid v b).2, journal'⟩) := by
  obtain ⟨hlt, hlive, -⟩ := hl.of_storageOf? hn hv
  unfold addBlock Ledger.place
  rw [exec_bind_ok (exec_check_of_tied htied)]
  rw [exec_bind_ok (exec_ledger _)]
  simp only [hv]
  cases hs : l.holderOn? b (l.node n).uuid with
  | none => exact ⟨journal, exec_attempt_ok ⟨l, journal⟩ (hl.attach_eq hlt hlive hb)⟩
  | some source =>
    by_cases hsource : source = v
    · simp only [hsource, if_true]
      exact ⟨journal, rfl⟩
    · have hrelisted := Ledger.relisted_dropBlock l (l.node n).uuid b
      have hattach := (hl.coherent_dropBlock (l.node n).uuid b).attach_eq (v := v) (b := b)
        (hrelisted.storages ▸ hlt) ((hrelisted.live v).trans hlive) (hrelisted.blocks ▸ hb)
      simp only [if_neg hsource]
      rw [exec_bind_ok (exec_record ..)]
      simp only
      rw [exec_bind_ok (exec_attempt_ok _ (hl.dropBlock hs).2.1)]
      exact ⟨_, exec_attempt_ok _ hattach⟩

theorem exec_addReportedBlock_eq (hl : s.ledger.Coherent) (h : s.ledger.Enrolled) {b : BlockRef}
    (hb : b.index < s.ledger.blocks.size) (uuid id : String) : ∃ journal, (addReportedBlock c uuid id b).exec s =
      (.ok (s.ledger.report c uuid id b).1, ⟨(s.ledger.report c uuid id b).2, journal⟩) := by
  unfold Ledger.report
  cases hn : (s.ledger.coordinator c).nodes.find? uuid with
  | none => exact ⟨s.journal, exec_addReportedBlock_of_none hn id b⟩
  | some n =>
    cases hv : s.ledger.storageOf? n id with
    | none =>
      simp only [hv]
      exact ⟨s.journal, exec_addReportedBlock_of_unknown hn hv b⟩
    | some v =>
      let r := (s.ledger.coordinator c).lock
      have halike : s.ledger.Alike (s.ledger.take r) := Ledger.alike_modifyLock r _
      have huuid : ((s.ledger.take r).node n).uuid = uuid := h.uuid c uuid n hn
      have hadd := fun journal => exec_addBlock_of_tied (g := ⟨r⟩) (halike.quiet.coherent hl)
        (halike.held ▸ Ledger.mem_heldNodes_of_find? hn) (h.tied c uuid n hn) (halike.blocks ▸ hb) hv journal
      rw [huuid] at hadd
      obtain ⟨journal, he⟩ := exec_locked (s := s) r (fun g => addBlock g n id b) hadd
      refine ⟨journal, ?_⟩
      rw [exec_addReportedBlock_of_some hn hv]
      rw [exec_bind_ok he]
      simp only [hv]
      rfl

end Request

theorem Step.ledger_heartbeat {s : Service} {c : CoordinatorRef} (h : s.ledger.Enrolled) (uuid : String)
    (beat : Heartbeat) : ((heartbeat c uuid beat).after s).ledger = (s.ledger.heartbeat c uuid beat).2 := by
  obtain ⟨journal, he⟩ := Request.exec_heartbeat_eq h uuid beat
  exact congrArg (fun x => x.2.ledger) he

namespace Operation
variable {s : Service} {c : CoordinatorRef}

private theorem exec_answer {α : Type} {r : Request α} {f : α → Answer} {a : α} {s' : Service}
    (h : r.exec s = (.ok a, s')) : (do pure (f (← r)) : Request Answer).exec s = (.ok (f a), s') := by
  rw [Request.exec_bind_ok h]
  rfl

theorem exec_request (hl : s.ledger.Coherent) (h : s.ledger.Enrolled) {op : Operation}
    (hop : (op.step c).Enabled s.ledger) : ∃ journal, (op.request c).exec s =
      (.ok (op.outcome c s.ledger).1, ⟨(op.outcome c s.ledger).2, journal⟩) := by
  cases op with
  | register r storages =>
    obtain ⟨journal, he⟩ := Request.exec_register_eq (c := c) h r storages
    exact ⟨journal, exec_answer he⟩
  | remove uuid =>
    obtain ⟨journal, he⟩ := Request.exec_removeNode_eq (c := c) hl h uuid
    exact ⟨journal, exec_answer he⟩
  | heartbeat uuid beat =>
    obtain ⟨journal, he⟩ := Request.exec_heartbeat_eq (c := c) h uuid beat
    exact ⟨journal, exec_answer he⟩
  | report uuid id b =>
    obtain ⟨journal, he⟩ := Request.exec_addReportedBlock_eq (c := c) hl h hop uuid id
    exact ⟨journal, exec_answer he⟩
  | recover uuid b =>
    obtain ⟨journal, he⟩ := Request.exec_addRecoveryOn_eq (s := s) (c := c) uuid b
    exact ⟨journal, exec_answer he⟩

theorem after_step (op : Operation) : (op.step c).after s = ((op.request c).exec s).2 := by
  have hanswer : ∀ {α : Type} (r : Request α) (f : α → Answer),
      ((do pure (f (← r)) : Request Answer).exec s).2 = (r.exec s).2 := by
    intro α r f
    rw [Request.exec_bind]
    split
    · rename_i he
      rw [he]
      rfl
    · rename_i he
      rw [he]
  cases op <;> exact (hanswer _ _).symm

theorem managed (op : Operation) : (op.step c).Managed c := by
  cases op <;> first | exact trivial | exact rfl

end Operation

/-- What holds of a service on which one coordinator decides which nodes are registered, which are alive and which
blocks come onto their volumes. -/
structure Service.Kept (c : CoordinatorRef) (s : Service) : Prop where
  reachable : Reachable s
  made : c.index < s.ledger.coordinators.size
  housed : s.ledger.Housed c
  onePerNode : s.ledger.OnePerNode
  gauged : s.Gauged c
  spared : s.ledger.underflows c = 0

namespace Service
variable {s : Service} {c : CoordinatorRef}

/-- A managed step leaves it to the coordinator which nodes are alive. -/
theorem not_meddles_of_managed {step : Step} (hmanaged : step.Managed c) : ¬ step.Meddles c s := by
  intro hmeddles
  unfold Step.Meddles at hmeddles
  split at hmeddles
  · exact hmanaged
  · exact hmanaged
  · exact hmeddles

/-- What a managed step keeps. -/
theorem Kept.after (h : s.Kept c) {step : Step} (hmanaged : step.Managed c) (hstep : step.Enabled s.ledger)
    (hcountable : (step.after s).Countable c) : (step.after s).Kept c := by
  have hmeddles : ¬ step.Meddles c s := not_meddles_of_managed hmanaged
  obtain ⟨hgauged, hspared⟩ := h.gauged.after h.reachable h.made hmeddles hstep hcountable
  refine ⟨h.reachable.step hstep, ?_, ?_, ?_, hgauged, hspared.trans h.spared⟩
  · exact Nat.lt_of_lt_of_le h.made (step.keepsTerms_after hstep).size
  · exact step.housed_after h.reachable h.housed hmanaged hstep
  · refine (step.onePerNode_iff h.reachable.coherent hstep h.onePerNode).2 fun hdoubles => ?_
    cases step with
    | replaceBlock g n old new => exact hmanaged
    | _ => exact hdoubles

/-- What a run keeps. -/
theorem Kept.run (h : s.Kept c) {steps : List Step} (hmanaged : ∀ step ∈ steps, step.Managed c)
    (hsteps : s.Legal steps) (hcountable : s.Throughout (Countable c) steps) : (s.run steps).Kept c := by
  induction steps generalizing s with
  | nil => exact h
  | cons step steps ih =>
    have hafter := h.after (hmanaged step List.mem_cons_self) hsteps.1 hcountable.2.head
    exact ih hafter (fun later hlater => hmanaged later (List.mem_cons_of_mem step hlater)) hsteps.2 hcountable.2

/-- A coordinator that has just been made on a service without records has the service for itself. -/
theorem kept_made (clock : Int) (limits : Limits) :
    ((Step.makeCoordinator limits).after { ledger := { clock } }).Kept ⟨0⟩ where
  reachable := (Reachable.start clock).step (show (Step.makeCoordinator limits).Enabled _ from trivial)
  made := Nat.zero_lt_one
  housed := Ledger.housed_made clock limits
  onePerNode _ _ _ _ _ _ hb _ := (List.not_mem_nil hb).elim
  gauged := by
    rw [gauged_iff]
    intro g
    cases g <;> rfl
  spared := rfl

end Service
end DatanodeLedger
