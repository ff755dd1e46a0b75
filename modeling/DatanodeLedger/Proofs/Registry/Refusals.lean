import DatanodeLedger.Proofs.Heartbeat.Counters

/-! The requests that are answered with an error: when that is, and that such a request has changed nothing. -/
namespace DatanodeLedger

/-- What is handed in to a coordinator or to a node, and can be refused. -/
inductive Submission where
  | heartbeat (c : CoordinatorRef) (uuid : String) (h : Heartbeat)
  | report (c : CoordinatorRef) (uuid id : String) (b : BlockRef)
  | recover (c : CoordinatorRef) (uuid : String) (b : OpenRef)
  | replicate (n : NodeRef) (b : Block) (targets : List StorageRef)
  | invalidate (n : NodeRef) (bs : List Block)

namespace Submission

/-- What comes back if a submission is accepted. -/
def Answer : Submission → Type
  | heartbeat .. => List Command
  | report .. | recover .. => Bool
  | replicate .. => PUnit
  | invalidate .. => Nat

def request : (x : Submission) → Request (Except Error x.Answer)
  | heartbeat c uuid h => Request.heartbeat c uuid h
  | report c uuid id b => Request.addReportedBlock c uuid id b
  | recover c uuid b => Request.addRecoveryOn c uuid b
  | replicate n b targets => Request.addTransfer n b targets
  | invalidate n bs => Request.addInvalidations n bs

def step : Submission → Step
  | heartbeat c uuid h => .heartbeat c uuid h
  | report c uuid id b => .addReportedBlock c uuid id b
  | recover c uuid b => .addRecoveryOn c uuid b
  | replicate n b targets => .addTransfer n b targets
  | invalidate n bs => .addInvalidations n bs

/-- The coordinator that looks a node up by its uuid. -/
def lookup? : Submission → Option (CoordinatorRef × String)
  | heartbeat c uuid _ | report c uuid _ _ | recover c uuid _ => some (c, uuid)
  | replicate .. | invalidate .. => none

/-- The errors with which a submission is refused. -/
inductive Refused (l : Ledger) : Submission → Error → Prop
  | unregistered {x : Submission} {c : CoordinatorRef} {uuid : String} (hx : x.lookup? = some (c, uuid))
    (hfind : (l.coordinator c).nodes.find? uuid = none) : Refused l x (.unregisteredDatanode uuid)
  | disallowed {c : CoordinatorRef} {uuid : String} {n : NodeRef} (hfind : (l.coordinator c).nodes.find? uuid = some n)
    (hdisallowed : (l.node n).disallowed = true) (h : Heartbeat) :
    Refused l (.heartbeat c uuid h) (.disallowedDatanode uuid)
  | unknown {c : CoordinatorRef} {uuid id : String} {n : NodeRef}
    (hfind : (l.coordinator c).nodes.find? uuid = some n) (hunknown : l.storageOf? n id = none) (b : BlockRef) :
    Refused l (.report c uuid id b) (.unknownStorage uuid id)
  | untargeted (n : NodeRef) (b : Block) : Refused l (.replicate n b []) (.noReplicationTargets b.id)
  | empty (n : NodeRef) : Refused l (.invalidate n []) (.emptyInvalidation (l.node n).uuid)

end Submission

/-- A coordinator has counted one more heartbeat as rejected, and nothing else has happened. -/
structure Ledger.CountsRejection (c : CoordinatorRef) (l l' : Ledger) : Prop where
  rest : l' = { l with coordinators := l'.coordinators }
  size : l'.coordinators.size = l.coordinators.size
  others : ∀ k, k ≠ c → l'.coordinator k = l.coordinator k
  counted : l'.coordinator c = { l.coordinator c with
    metrics := { (l.coordinator c).metrics with
      rejectedHeartbeats := (l.coordinator c).metrics.rejectedHeartbeats + 1 } }

theorem Ledger.countsRejection_count {l : Ledger} {c : CoordinatorRef} (hc : c.index < l.coordinators.size) :
    l.CountsRejection c (l.count c [(.rejectedHeartbeats, 1)]) where
  rest := rfl
  size := Array.size_modify
  others _ hk := coordinator_modifyCoordinator_of_ne hk _
  counted := coordinator_modifyCoordinator hc _

namespace Submission
variable {s s' : Service} {x : Submission} {e : Error}

/-- What a refused submission leaves behind. -/
def Spared (s s' : Service) : Submission → Prop
  | heartbeat c _ _ => s.ledger.CountsRejection c s'.ledger
  | _ => s' = s

/-- A submission is answered, with an error just where it is refused, and then it has changed nothing. -/
def Settles (s : Service) (x : Submission) : Prop :=
  ∃ answer s', x.request.exec s = (.ok answer, s') ∧ (∀ e, answer = .error e ↔ x.Refused s.ledger e) ∧
    ∀ e, answer = .error e → x.Spared s s'

theorem settles_of_error (he : x.request.exec s = (.ok (.error e), s')) (h : ∀ e', x.Refused s.ledger e' ↔ e' = e)
    (hspared : x.Spared s s') : x.Settles s := by
  refine ⟨.error e, s', he, fun e' => ?_, fun _ _ => hspared⟩
  rw [h, Except.error.injEq]
  exact eq_comm

theorem settles_of_ok {a : x.Answer} (he : x.request.exec s = (.ok (.ok a), s'))
    (h : ∀ e, ¬ x.Refused s.ledger e) : x.Settles s :=
  ⟨.ok a, s', he, fun e => ⟨fun heq => (nomatch heq), fun hrefused => (h e hrefused).elim⟩, fun _ heq => (nomatch heq)⟩

section refused
variable {l : Ledger} {c : CoordinatorRef} {uuid id : String} {n : NodeRef}

/-- Whoever looks a node up and does not find it refuses what is handed in, whatever that is. -/
theorem refused_of_none (hx : x.lookup? = some (c, uuid)) (hfind : (l.coordinator c).nodes.find? uuid = none) :
    x.Refused l e ↔ e = .unregisteredDatanode uuid := by
  refine ⟨fun h => ?_, fun h => h ▸ .unregistered hx hfind⟩
  cases h with
  | unregistered hx' => cases hx.symm.trans hx'; rfl
  | disallowed hfind' => cases hx; cases hfind.symm.trans hfind'
  | unknown hfind' => cases hx; cases hfind.symm.trans hfind'
  | untargeted | empty => cases hx

theorem refused_heartbeat_iff (hfind : (l.coordinator c).nodes.find? uuid = some n) {h : Heartbeat} :
    (heartbeat c uuid h).Refused l e ↔ (l.node n).disallowed = true ∧ e = .disallowedDatanode uuid := by
  refine ⟨fun hrefused => ?_, fun hrefused => hrefused.2 ▸ .disallowed hfind hrefused.1 h⟩
  cases hrefused with
  | unregistered hx hnone => cases hx; cases hfind.symm.trans hnone
  | disallowed hfind' hdisallowed => cases hfind.symm.trans hfind'; exact ⟨hdisallowed, rfl⟩

theorem refused_report_iff (hfind : (l.coordinator c).nodes.find? uuid = some n) {b : BlockRef} :
    (report c uuid id b).Refused l e ↔ l.storageOf? n id = none ∧ e = .unknownStorage uuid id := by
  refine ⟨fun hrefused => ?_, fun hrefused => hrefused.2 ▸ .unknown hfind hrefused.1 b⟩
  cases hrefused with
  | unregistered hx hnone => cases hx; cases hfind.symm.trans hnone
  | unknown hfind' hunknown => cases hfind.symm.trans hfind'; exact ⟨hunknown, rfl⟩

theorem not_refused_recover (hfind : (l.coordinator c).nodes.find? uuid = some n) {b : OpenRef} :
    ¬ (recover c uuid b).Refused l e := by
  intro hrefused
  cases hrefused with
  | unregistered hx hnone => cases hx; cases hfind.symm.trans hnone

end refused

section settles
variable {c : CoordinatorRef} {uuid id : String} {n : NodeRef}

theorem settles_heartbeat (hs : s.ledger.Enrolled) (hc : c.index < s.ledger.coordinators.size) (h : Heartbeat) :
    (heartbeat c uuid h).Settles s := by
  cases hfind : (s.ledger.coordinator c).nodes.find? uuid with
  | none =>
    have hrefused := fun e => refused_of_none (x := heartbeat c uuid h) (e := e) rfl hfind
    exact settles_of_error (Request.exec_heartbeat_of_none hfind h) hrefused (Ledger.countsRejection_count hc)
  | some n =>
    have hrefused : ∀ e, (heartbeat c uuid h).Refused s.ledger e ↔ _ := fun e => refused_heartbeat_iff hfind
    cases hallowed : (s.ledger.node n).disallowed with
    | true =>
      obtain ⟨journal, he⟩ := Request.exec_heartbeat_of_disallowed hfind hallowed h
      exact settles_of_error he (fun e => (hrefused e).trans (and_iff_right hallowed)) (Ledger.countsRejection_count hc)
    | false =>
      have hnot : ∀ e, ¬ (heartbeat c uuid h).Refused s.ledger e := fun e he =>
        nomatch hallowed.symm.trans ((hrefused e).1 he).1
      cases halive : (s.ledger.node n).alive with
      | true =>
        obtain ⟨journal, he⟩ := Request.exec_heartbeat_of_live hfind (hs.made c uuid n hfind) hallowed halive h
        exact settles_of_ok he hnot
      | false => exact settles_of_ok (Request.exec_heartbeat_of_dead hfind hallowed halive h) hnot

theorem settles_report (hl : s.ledger.Coherent) (hs : s.ledger.Enrolled) {b : BlockRef}
    (hb : b.index < s.ledger.blocks.size) : (report c uuid id b).Settles s := by
  cases hfind : (s.ledger.coordinator c).nodes.find? uuid with
  | none =>
    have hrefused := fun e => refused_of_none (x := report c uuid id b) (e := e) rfl hfind
    have he : (Request.addReportedBlock c uuid id b).exec s = (.ok (.error (.unregisteredDatanode uuid)), s) := by
      unfold Request.addReportedBlock
      rw [Request.exec_bind_ok (Request.exec_registered? ..), hfind]
      rfl
    exact settles_of_error he hrefused rfl
  | some n =>
    have hrefused : ∀ e, (report c uuid id b).Refused s.ledger e ↔ _ := fun e => refused_report_iff hfind
    cases hunknown : s.ledger.storageOf? n id with
    | none =>
      have he : (Request.addReportedBlock c uuid id b).exec s = (.ok (.error (.unknownStorage uuid id)), s) := by
        unfold Request.addReportedBlock
        rw [Request.exec_bind_ok (Request.exec_registered? ..), hfind]
        simp only
        rw [Request.exec_bind_ok (Request.exec_ledger _)]
        simp only [hunknown]
        rfl
      exact settles_of_error he (fun e => (hrefused e).trans (and_iff_right hunknown)) rfl
    | some v =>
      obtain ⟨journal, he⟩ := Request.exec_addReportedBlock_eq (c := c) hl hs hb uuid id
      unfold Ledger.report at he
      simp only [hfind, hunknown] at he
      refine settles_of_ok he fun e h => ?_
      cases hunknown.symm.trans ((hrefused e).1 h).1

theorem settles_recover (b : OpenRef) : (recover c uuid b).Settles s := by
  cases hfind : (s.ledger.coordinator c).nodes.find? uuid with
  | none =>
    have hrefused := fun e => refused_of_none (x := recover c uuid b) (e := e) rfl hfind
    have he : (Request.addRecoveryOn c uuid b).exec s = (.ok (.error (.unregisteredDatanode uuid)), s) := by
      unfold Request.addRecoveryOn
      rw [Request.exec_bind_ok (Request.exec_registered? ..), hfind]
      rfl
    exact settles_of_error he hrefused rfl
  | some n =>
    obtain ⟨journal, he⟩ := Request.exec_addRecoveryOn_eq (s := s) (c := c) uuid b
    unfold Ledger.recover at he
    simp only [hfind] at he
    exact settles_of_ok he fun e => not_refused_recover hfind

theorem settles_replicate (n : NodeRef) (b : Block) (targets : List StorageRef) :
    (replicate n b targets).Settles s := by
  cases targets with
  | nil =>
    refine settles_of_error (e := .noReplicationTargets b.id) rfl (fun e => ⟨fun h => ?_, fun h => ?_⟩) rfl
    · cases h with
      | unregistered hx => cases hx
      | untargeted => rfl
    · exact h ▸ .untargeted n b
  | cons t targets =>
    refine settles_of_ok (a := ⟨⟩) rfl fun e h => ?_
    cases h with
    | unregistered hx => cases hx

theorem settles_invalidate (n : NodeRef) (bs : List Block) : (invalidate n bs).Settles s := by
  cases bs with
  | nil =>
    refine settles_of_error (e := .emptyInvalidation (s.ledger.node n).uuid) rfl (fun e => ⟨fun h => ?_, fun h => ?_⟩) rfl
    · cases h with
      | unregistered hx => cases hx
      | empty => rfl
    · exact h ▸ .empty n
  | cons b bs =>
    refine settles_of_ok (a := ((s.ledger.node n).invalidations.addAll (b :: bs)).1) rfl fun e h => ?_
    cases h with
    | unregistered hx => cases hx

end settles

/-- A heartbeat, a reported block, a recovery, a transfer and deletions are always answered. The answer is an error just
where the node is not registered, or is not allowed to send heartbeats, where the volume is not one of the node, and
where there are no targets or no blocks. Then everything is as it was, except that a rejected heartbeat is counted. -/
theorem refusals_leave_state (hs : Reachable s) (hx : x.step.Enabled s.ledger)
    (hc : ∀ c uuid, x.lookup? = some (c, uuid) → c.index < s.ledger.coordinators.size) :
    ∃ answer s', x.request.exec s = (.ok answer, s') ∧ (∀ e, answer = .error e ↔ x.Refused s.ledger e) ∧
      ∀ e, answer = .error e → x.Spared s s' := by
  cases x with
  | heartbeat c uuid h => exact settles_heartbeat hs.enrolled (hc c uuid rfl) h
  | report c uuid id b => exact settles_report hs.coherent hs.enrolled hx
  | recover c uuid b => exact settles_recover b
  | replicate n b targets => exact settles_replicate n b targets
  | invalidate n bs => exact settles_invalidate n bs

/-- A node with a block, a recovery and a key update that wait for it, which has been disallowed. -/
def turnedAway : List Step :=
  [.makeCoordinator {}, .makeBlock ⟨7, 100, 1⟩ 3, .makeOpenBlock { block := ⟨8, 50, 1⟩ },
    .register ⟨0⟩ (.ofAddress "a" "10.0.0.1" 9866) [{ id := "A" }], .addReportedBlock ⟨0⟩ "a" "A" ⟨0⟩,
    .addRecoveryOn ⟨0⟩ "a" ⟨0⟩, .requestKeyUpdate ⟨0⟩, .changeNode ⟨0⟩ (.disallowed true)]

/-- Its heartbeat is rejected, and what waits still waits. A block on a volume that it does not have is refused. -/
theorem refusals_leave_state_turned_away :
    let s := ({} : Service).run turnedAway
    (∃ s', (Request.heartbeat ⟨0⟩ "a" {}).exec s = (.ok (.error (.disallowedDatanode "a")), s') ∧
      s.ledger.CountsRejection ⟨0⟩ s'.ledger) ∧
    (Request.addReportedBlock ⟨0⟩ "a" "B" ⟨0⟩).exec s = (.ok (.error (.unknownStorage "a" "B")), s) := by
  intro s
  have hs : Reachable s := (Reachable.start 0).run (by decide +kernel)
  have hmade : (⟨0⟩ : CoordinatorRef).index < s.ledger.coordinators.size := by decide +kernel
  have hfind : (s.ledger.coordinator ⟨0⟩).nodes.find? "a" = some ⟨0⟩ := by decide +kernel
  obtain ⟨answer, s', he, hrefused, hspared⟩ := refusals_leave_state (x := heartbeat ⟨0⟩ "a" {}) hs trivial
    fun c uuid hx => by cases hx; exact hmade
  obtain rfl := (hrefused _).2 (.disallowed hfind (by decide +kernel) {})
  obtain ⟨answer₂, s₂, he₂, hrefused₂, hspared₂⟩ := refusals_leave_state (x := report ⟨0⟩ "a" "B" ⟨0⟩) hs
    (show (0 : Nat) < s.ledger.blocks.size by decide +kernel) fun c uuid hx => by cases hx; exact hmade
  obtain rfl := (hrefused₂ _).2 (.unknown hfind (by decide +kernel) ⟨0⟩)
  have hsame : s₂ = s := hspared₂ _ rfl
  exact ⟨⟨s', he, hspared _ rfl⟩, hsame ▸ he₂⟩

end Submission
end DatanodeLedger
