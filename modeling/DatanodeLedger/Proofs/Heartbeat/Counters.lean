import DatanodeLedger.Proofs.Registry.Housed
import DatanodeLedger.Proofs.Work.Schedule

/-! The counters of a coordinator over its whole history. Only heartbeats and recoveries that are handed to the
coordinator raise a counter, and what they raise it by can be read off from their answers. -/
namespace DatanodeLedger

namespace Counter

/-- What a counter of dispatches counts of the commands that go out. -/
def dispatched (x : Counter) (commands : List Command) : Nat :=
  match x with
  | blocksToReplicateDispatched => (commands.flatMap Command.transfers).length
  | blocksToRecoverDispatched => (commands.flatMap Command.recoveries).length
  | blocksToInvalidateDispatched => (commands.flatMap Command.invalidations).length
  | _ => 0

/-- What a counter counts of the answers to heartbeats, of the reports on unknown volumes, and of the answers to
recoveries that are handed in. -/
def counted (x : Counter) (answers : List (Except Error (List Command))) (unknown : List StorageReport)
    (offers : List (Except Error Bool)) : Nat :=
  match x with
  | heartbeatsTotal => answers.countP fun answer => answer.isOk
  | rejectedHeartbeats => answers.countP fun answer => !answer.isOk
  | unknownStorageReports => unknown.length
  | duplicateRecoverySubmissions => offers.countP fun offer => offer.toOption = some false
  | x => x.dispatched (answers.flatMap fun answer => answer.toOption.getD [])

theorem counted_nil (x : Counter) : x.counted [] [] [] = 0 := by
  cases x <;> rfl

theorem counted_append (x : Counter) (answers answers' : List (Except Error (List Command)))
    (unknown unknown' : List StorageReport) (offers offers' : List (Except Error Bool)) :
    x.counted (answers ++ answers') (unknown ++ unknown') (offers ++ offers') =
      x.counted answers unknown offers + x.counted answers' unknown' offers' := by
  cases x <;> simp only [counted, dispatched, List.countP_append, List.length_append, List.flatMap_append]

/-- How much of what is counted goes to one counter. -/
def share (x : Counter) : List (Counter × UInt64) → UInt64
  | [] => 0
  | p :: counts => (if p.1 = x then p.2 else 0) + x.share counts

/-- Of an answer without lease recoveries, the batches are counted. -/
theorem share_batches (x : Counter) (transfers : Option (List Transfer)) (blocks : Option (List Block))
    (bandwidth : Option UInt64) (notice : Bool) :
    x.share ((transfers.map fun batch => (blocksToReplicateDispatched, UInt64.ofNat batch.length)).toList
        ++ (blocks.map fun batch => (blocksToInvalidateDispatched, UInt64.ofNat batch.length)).toList) =
      UInt64.ofNat (x.dispatched ((transfers.map Command.replicate).toList ++ (blocks.map Command.invalidate).toList
        ++ (bandwidth.map Command.balancerBandwidth).toList ++ (if notice then [.keyUpdate] else []))) := by
  obtain ⟨hrecoveries, htransfers, hinvalidations⟩ := Command.flatMap_answer transfers blocks bandwidth notice
  cases x <;> simp only [dispatched, hrecoveries, htransfers, hinvalidations] <;> cases transfers <;> cases blocks <;>
    simp [share]

/-- What is counted of an answer is what it brings. -/
theorem share_serve (x : Counter) (node : Node) (limits : Limits) :
    x.share (node.serve limits).2.1 = UInt64.ofNat (x.dispatched (node.serve limits).1) := by
  unfold Node.serve
  cases node.pollRecoveries limits.maxRecoveryStreams.toNat with
  | mk batch node =>
    cases batch with
    | some blocks =>
      cases x <;> simp [share, dispatched, Command.transfers, Command.recoveries, Command.invalidations]
    | none => exact x.share_batches _ _ _ _

end Counter

theorem Metrics.counter_add (m : Metrics) (x y : Counter) (count : UInt64) :
    (m.add y count).counter x = m.counter x + if y = x then count else 0 := by
  cases x <;> cases y <;> simp [add, counter]

/-- Whether heartbeats of a node are taken in. -/
def Node.heeded (node : Node) : Bool := node.alive && !node.disallowed

namespace Ledger
variable {l l' : Ledger} {c k : CoordinatorRef} {n : NodeRef}

/-- What a counter of a coordinator shows. -/
def counter (l : Ledger) (c : CoordinatorRef) (x : Counter) : UInt64 := (l.coordinator c).metrics.counter x

/-- No counter of any coordinator rises. -/
def KeepsCounters (l l' : Ledger) : Prop := ∀ c x, l'.counter c x = l.counter c x

theorem keepsCounters_of_eq (h : l'.coordinators = l.coordinators) : l.KeepsCounters l' := by
  intro c x
  unfold counter coordinator
  rw [h]

theorem keepsCounters_modifyCoordinator {f : Coordinator → Coordinator}
    (h : ∀ x, (f (l.coordinator k)).metrics.counter x = (l.coordinator k).metrics.counter x) :
    l.KeepsCounters (l.modifyCoordinator k f) :=
  fun c x => coordinator_modifyCoordinator_congr (fun k => k.metrics.counter x) (h x) c

/-- Counters that rise together rise by what goes to each of them. -/
theorem counter_count (hc : c.index < l.coordinators.size) (k : CoordinatorRef) (counts : List (Counter × UInt64))
    (x : Counter) : (l.count k counts).counter c x = l.counter c x + if k = c then x.share counts else 0 := by
  induction counts generalizing l with
  | nil =>
    rw [Counter.share, ite_self, UInt64.add_zero]
    rfl
  | cons p counts ih =>
    have hone : (l.modifyCoordinator k fun k => { k with metrics := k.metrics.add p.1 p.2 }).counter c x =
        l.counter c x + if k = c then (if p.1 = x then p.2 else 0) else 0 := by
      unfold counter
      split
      case isTrue hk =>
        rw [hk, coordinator_modifyCoordinator hc]
        exact Metrics.counter_add _ x p.1 p.2
      case isFalse hk => rw [coordinator_modifyCoordinator_of_ne (Ne.symm hk), UInt64.add_zero]
    have hsize : c.index <
        (l.modifyCoordinator k fun k => { k with metrics := k.metrics.add p.1 p.2 }).coordinators.size :=
      Nat.lt_of_lt_of_eq hc Array.size_modify.symm
    refine (ih hsize).trans ?_
    rw [hone, Counter.share]
    split
    · exact UInt64.add_assoc _ _ _
    · rw [UInt64.add_zero]

/-- The reports in a heartbeat that name no volume of the node, if the node is one of those that are meant. -/
def unknownReports (l : Ledger) (c : CoordinatorRef) (uuid : String) (meant : Node → Bool) (h : Heartbeat) :
    List StorageReport :=
  match (l.coordinator c).nodes.find? uuid with
  | some n => if meant (l.node n) then h.reports.filter fun r => (l.storageOf? n r.storage.id).isNone else []
  | none => []

theorem counter_beat (hc : c.index < l.coordinators.size) (k : CoordinatorRef) (n : NodeRef) (h : Heartbeat)
    (x : Counter) : (l.beat k n h).counter c x = l.counter c x +
      if k = c then UInt64.ofNat (x.counted [.ok (((l.node n).receive l.now h).serve (l.coordinator k).limits).1]
        (h.reports.filter fun r => (l.storageOf? n r.storage.id).isNone) []) else 0 := by
  have hunknown : (h.reports.countP fun r => !(l.node n).knows r) =
      (h.reports.filter fun r => (l.storageOf? n r.storage.id).isNone).length := by
    rw [List.countP_eq_length_filter]
    simp only [not_knows]
  let served := ((l.node n).receive l.now h).serve (l.coordinator k).limits
  let taken := (l.takeReports n l.now h.reports).setNode n served.2.2
  have hcoordinators : taken.coordinators = l.coordinators := by
    change (l.takeReports n l.now h.reports).coordinators = l.coordinators
    rw [takeReports_eq]
  have hbeat : l.beat k n h = taken.count k ((.heartbeatsTotal, 1) ::
      (.unknownStorageReports, UInt64.ofNat (h.reports.countP fun r => !(l.node n).knows r)) :: served.2.1) := rfl
  rw [hbeat, counter_count (hcoordinators ▸ hc), keepsCounters_of_eq hcoordinators c x, Counter.share, Counter.share,
    Counter.share_serve, hunknown]
  cases x <;> simp [Counter.counted, Counter.dispatched, Except.isOk, Except.toBool, Except.toOption]

/-- A heartbeat raises counters by what is counted of its answer and of the reports that are taken in from it. -/
theorem counter_heartbeat (hc : c.index < l.coordinators.size) (k : CoordinatorRef) (uuid : String) (h : Heartbeat)
    (x : Counter) : (l.heartbeat k uuid h).2.counter c x = l.counter c x +
      if k = c then
        UInt64.ofNat (x.counted [(l.heartbeat k uuid h).1] (l.unknownReports k uuid Node.heeded h) [])
      else 0 := by
  unfold heartbeat unknownReports Node.heeded
  cases hfind : (l.coordinator k).nodes.find? uuid with
  | none =>
    rw [counter_count hc]
    cases x <;> rfl
  | some n =>
    cases hallowed : (l.node n).disallowed with
    | true =>
      simp only [hallowed, if_true, Bool.not_true, Bool.and_false, Bool.false_eq_true, if_false]
      rw [counter_count hc]
      cases x <;> rfl
    | false =>
      cases halive : (l.node n).alive with
      | false =>
        simp only [hallowed, halive, Bool.false_and, Bool.false_eq_true, if_false]
        rw [counter_count hc]
        cases x <;> rfl
      | true =>
        simp only [hallowed, halive, Bool.not_false, Bool.and_self, Bool.false_eq_true, if_true, if_false]
        exact counter_beat hc k n h x

/-- A recovery that is handed in raises a counter if it is a duplicate. -/
theorem counter_recover (hc : c.index < l.coordinators.size) (k : CoordinatorRef) (uuid : String) (b : OpenRef)
    (x : Counter) : (l.recover k uuid b).2.counter c x = l.counter c x +
      if k = c then UInt64.ofNat (x.counted [] [] [(l.recover k uuid b).1]) else 0 := by
  unfold recover
  cases hfind : (l.coordinator k).nodes.find? uuid with
  | none => cases x <;> simp [Counter.counted, Counter.dispatched, Except.toOption]
  | some n =>
    unfold queue
    cases hadded : (l.offer n b).1 with
    | true =>
      have hsame : (l.modifyNode n fun node => { node with recoveries := (l.offer n b).2 }).counter c x =
          l.counter c x := rfl
      simp only [hadded, if_true, hsame]
      cases x <;> simp [Counter.counted, Counter.dispatched, Except.toOption]
    | false =>
      simp only [hadded, Bool.false_eq_true, if_false]
      rw [counter_count hc]
      cases x <;> rfl

/-- A coordinator that is new has counted nothing yet. -/
theorem keepsCounters_addCoordinator (l : Ledger) (limits : Limits) :
    l.KeepsCounters (l.addCoordinator limits).2 := by
  intro c x
  unfold counter coordinator addCoordinator
  rw [Array.getElem?_push]
  split
  · rename_i hc
    have hnone : l.coordinators[c.index]? = none := Array.getElem?_eq_none (Nat.le_of_eq hc.symm)
    rw [hnone]
    cases x <;> rfl
  · rfl

instance : IsPreorder Ledger KeepsCounters where
  refl _ _ _ := rfl
  trans _ _ _ h h' c x := (h' c x).trans (h c x)

instance : Request.Slim KeepsCounters where
  unseen _ hcoordinators _ := keepsCounters_of_eq hcoordinators
  node _ := keepsCounters_of_eq rfl
  newNode _ _ _ := keepsCounters_of_eq rfl
  guarded h _ := Request.guarded_of_modifyLock (fun _ _ _ => keepsCounters_of_eq rfl) h

theorem allowsLife_keepsCounters (c : CoordinatorRef) (n : NodeRef) : Request.AllowsLife KeepsCounters c n where
  node _ := keepsCounters_of_eq rfl
  metrics l _ hf := keepsCounters_modifyCoordinator fun x => hf (l.coordinator c).metrics x

theorem keepsCounters_enroll (c : CoordinatorRef) (r : Registration) :
    Request.Respects KeepsCounters (Request.enroll c r) := by
  intro s
  rw [Request.exec_enroll]
  have henter : s.ledger.KeepsCounters (s.ledger.enter c r) :=
    trans_of KeepsCounters (keepsCounters_of_eq rfl : s.ledger.KeepsCounters (s.ledger.bound c r))
      (keepsCounters_modifyCoordinator fun _ => rfl)
  exact trans_of KeepsCounters henter (keepsCounters_modifyCoordinator fun x => Metrics.counter_raise _ _ x)

end Ledger
open Ledger (KeepsCounters)

namespace Step
variable {s : Service} {c : CoordinatorRef}

/-- A step raises no counter unless it is one of two kinds. -/
theorem keepsCounters_after {step : Step} (hstep : step.Enabled s.ledger) (hcounts : ¬ step.Counts) :
    s.ledger.KeepsCounters (step.after s).ledger := by
  have hlife := Ledger.allowsLife_keepsCounters
  by_cases hstirs : step.Stirs
  · cases step with
    | changeNode n change => exact Ledger.keepsCounters_of_eq rfl
    | changeLock r lock => exact Ledger.keepsCounters_of_eq rfl
    | makeCoordinator limits => exact Ledger.keepsCounters_addCoordinator s.ledger limits
    | dropCoordinator k => exact Ledger.keepsCounters_modifyCoordinator fun _ => rfl
    | updateHeartbeat n beat => exact Request.respects_updateHeartbeat (hlife ⟨0⟩ n).hearing beat s
    | register k r storages =>
      exact Request.respects_register (hlife k) (Ledger.keepsCounters_enroll k r) storages s
    | removeNode k uuid =>
      exact Request.respects_removeNode (Request.rel_detach Request.Slim.rewrite) k uuid
        (fun n _ => Request.Slim.calmWork n)
        (fun n _ => Ledger.keepsCounters_modifyCoordinator (l := s.ledger.pin n) fun _ => rfl)
        (fun _ _ => Ledger.keepsCounters_of_eq rfl) (hlife k)
    | checkHeartbeats k now => exact Request.respects_checkHeartbeats (hlife k) now s
    | heartbeat k uuid beat => exact (hcounts trivial).elim
    | _ => exact hstirs.elim
  · exact step.slim_after hstirs hcounts hstep

/-- The heartbeats that are sent to a coordinator. -/
def isHeartbeat (c : CoordinatorRef) : Step → Bool
  | heartbeat k _ _ => k = c
  | _ => false

/-- The answer of a coordinator to a heartbeat. -/
def answers (c : CoordinatorRef) (s : Service) : Step → List (Except Error (List Command))
  | heartbeat k uuid h => if k = c then ((Request.heartbeat k uuid h).exec s).1.toOption.toList else []
  | _ => []

/-- The reports on unknown volumes that a coordinator gets from the nodes that are meant. -/
def unknownReports (c : CoordinatorRef) (meant : Node → Bool) (s : Service) : Step → List StorageReport
  | heartbeat k uuid h => if k = c then s.ledger.unknownReports k uuid meant h else []
  | _ => []

/-- The answer of a coordinator to a recovery that is handed in. -/
def offers (c : CoordinatorRef) (s : Service) : Step → List (Except Error Bool)
  | addRecoveryOn k uuid b => if k = c then ((Request.addRecoveryOn k uuid b).exec s).1.toOption.toList else []
  | _ => []

/-- What a step raises the counters of a coordinator by. -/
theorem counter_after (hs : Reachable s) (hc : c.index < s.ledger.coordinators.size) {step : Step}
    (hstep : step.Enabled s.ledger) (x : Counter) : (step.after s).ledger.counter c x = s.ledger.counter c x +
      UInt64.ofNat (x.counted (step.answers c s) (step.unknownReports c Node.heeded s) (step.offers c s)) := by
  by_cases hcounts : step.Counts
  · cases step with
    | heartbeat k uuid beat =>
      obtain ⟨journal, he⟩ := Request.exec_heartbeat_eq (c := k) hs.enrolled uuid beat
      have hafter : ((heartbeat k uuid beat).after s).ledger = (s.ledger.heartbeat k uuid beat).2 :=
        congrArg (fun x => x.2.ledger) he
      rw [hafter, Ledger.counter_heartbeat hc, answers, unknownReports, he]
      congr 1
      split
      · rfl
      · exact congrArg UInt64.ofNat x.counted_nil.symm
    | addRecoveryOn k uuid b =>
      obtain ⟨journal, he⟩ := Request.exec_addRecoveryOn_eq (c := k) (s := s) uuid b
      have hafter : ((addRecoveryOn k uuid b).after s).ledger = (s.ledger.recover k uuid b).2 :=
        congrArg (fun x => x.2.ledger) he
      rw [hafter, Ledger.counter_recover hc, offers, he]
      congr 1
      split
      · rfl
      · exact congrArg UInt64.ofNat x.counted_nil.symm
    | _ => exact hcounts.elim
  · have hnothing : x.counted (step.answers c s) (step.unknownReports c Node.heeded s) (step.offers c s) = 0 := by
      cases step with
      | heartbeat k uuid beat => exact (hcounts trivial).elim
      | addRecoveryOn k uuid b => exact (hcounts trivial).elim
      | _ => exact x.counted_nil
    rw [keepsCounters_after hstep hcounts c x, hnothing]
    exact (UInt64.add_zero _).symm

/-- Every heartbeat is answered. -/
theorem length_answers (hs : Reachable s) (c : CoordinatorRef) (step : Step) :
    (step.answers c s).length = if step.isHeartbeat c then 1 else 0 := by
  cases step with
  | heartbeat k uuid beat =>
    obtain ⟨journal, he⟩ := Request.exec_heartbeat_eq (c := k) hs.enrolled uuid beat
    rw [answers, he, isHeartbeat]
    by_cases hk : k = c
    · rw [if_pos hk, if_pos (decide_eq_true hk)]
      rfl
    · rw [if_neg hk, if_neg fun h => hk (of_decide_eq_true h)]
      rfl
  | _ => rfl

/-- The steps by which others turn a node away. -/
def disallows : Step → Bool
  | changeNode _ (.disallowed value) => value
  | _ => false

theorem disallowed_turn {l : Ledger} {n : NodeRef} {step : Step} (hstep : ¬ step.disallows)
    (hn : (l.node n).disallowed = false) : (step.turn l n).disallowed = false := by
  rcases step.turn_cases l n with ⟨change, rfl, hturn⟩ | ⟨-, hsame, -⟩
  · rw [hturn]
    cases change with
    | disallowed value => exact Bool.eq_false_iff.2 hstep
    | _ => exact hn
  · rw [hsame]
    exact hn

end Step

/-- Every node of a registry is allowed. -/
def Ledger.Allowed (l : Ledger) (c : CoordinatorRef) : Prop :=
  ∀ uuid n, (l.coordinator c).nodes.find? uuid = some n → (l.node n).disallowed = false

/-- Nodes are allowed when they register first, and stay so as long as nobody turns them away. -/
theorem Step.allowed_after {s : Service} {c : CoordinatorRef} (hs : Reachable s)
    (hc : c.index < s.ledger.coordinators.size) (h : s.ledger.Allowed c) {step : Step} (hstep : step.Enabled s.ledger)
    (hdisallows : ¬ step.disallows) : (step.after s).ledger.Allowed c := by
  intro uuid n hn
  have hturn : ((step.after s).ledger.node n).disallowed = (step.turn s.ledger n).disallowed :=
    congrArg Node.Standing.disallowed (step.standing_after hs hstep n)
  rw [hturn]
  apply disallowed_turn hdisallows
  by_cases hregisters : step.Registers c uuid
  · cases step with
    | register k r storages =>
      obtain ⟨rfl, rfl⟩ := hregisters
      cases hfind : (s.ledger.coordinator k).nodes.find? r.uuid with
      | some m =>
        have hsame := find?_after hs hstep (nofun) (nofun) hfind
        rw [hn] at hsame
        cases hsame
        exact h r.uuid n hfind
      | none =>
        have hafter := ledger_register_of_none hfind storages
        rw [hafter, (Ledger.keepsRegistries_settle _ k _ storages).registry, Ledger.find?_enroll_self hc] at hn
        cases hn
        have hold : s.ledger.node ⟨s.ledger.nodes.size⟩ = default := Ledger.node_of_le (Nat.le_refl _)
        rw [hold]
        rfl
    | _ => exact hregisters.elim
  · exact h uuid n (step.leaves hs.coherent hs.enrolled hstep hregisters hn).found

namespace Service
variable {s : Service} {c : CoordinatorRef} {steps : List Step}

/-- What a run raises the counters of a coordinator by. -/
theorem counter_run (hs : Reachable s) (hc : c.index < s.ledger.coordinators.size) (hsteps : s.Legal steps)
    (x : Counter) : (s.run steps).ledger.counter c x = s.ledger.counter c x +
      UInt64.ofNat (x.counted (s.along (Step.answers c) steps) (s.along (Step.unknownReports c Node.heeded) steps)
        (s.along (Step.offers c) steps)) := by
  induction steps generalizing s with
  | nil =>
    rw [along, along, along, x.counted_nil]
    exact (UInt64.add_zero _).symm
  | cons step steps ih =>
    have hc' : c.index < (step.after s).ledger.coordinators.size :=
      Nat.lt_of_lt_of_le hc (step.keepsTerms_after hsteps.1).size
    rw [run, ih (hs.step hsteps.1) hc' hsteps.2, Step.counter_after hs hc hsteps.1, along, along, along,
      x.counted_append, UInt64.ofNat_add, UInt64.add_assoc]

theorem length_answers (hs : Reachable s) (c : CoordinatorRef) (hsteps : s.Legal steps) :
    (s.along (Step.answers c) steps).length = steps.countP (Step.isHeartbeat c) := by
  induction steps generalizing s with
  | nil => rfl
  | cons step steps ih =>
    rw [along, List.length_append, step.length_answers hs c, ih (hs.step hsteps.1) hsteps.2, List.countP_cons,
      Nat.add_comm]

/-- As long as nobody turns nodes away, all that are alive are heeded. -/
theorem unknownReports_eq (hs : Reachable s) (hc : c.index < s.ledger.coordinators.size) (h : s.ledger.Allowed c)
    (hsteps : s.Legal steps) (hdisallows : ∀ step ∈ steps, ¬ step.disallows) :
    s.along (Step.unknownReports c Node.alive) steps = s.along (Step.unknownReports c Node.heeded) steps := by
  induction steps generalizing s with
  | nil => rfl
  | cons step steps ih =>
    have hone : step.unknownReports c Node.alive s = step.unknownReports c Node.heeded s := by
      cases step with
      | heartbeat k uuid beat =>
        rw [Step.unknownReports, Step.unknownReports]
        split
        case isTrue hk =>
          unfold Ledger.unknownReports Node.heeded
          cases hfind : (s.ledger.coordinator k).nodes.find? uuid with
          | none => rfl
          | some n =>
            have hallowed : (s.ledger.node n).disallowed = false := h uuid n (hk ▸ hfind)
            simp only [hallowed, Bool.not_false, Bool.and_true]
        case isFalse => rfl
      | _ => rfl
    have hc' : c.index < (step.after s).ledger.coordinators.size :=
      Nat.lt_of_lt_of_le hc (step.keepsTerms_after hsteps.1).size
    have hallowed := step.allowed_after hs hc h hsteps.1 (hdisallows step List.mem_cons_self)
    rw [along, along, hone, ih (hs.step hsteps.1) hc' hallowed hsteps.2
      fun later hlater => hdisallows later (List.mem_cons_of_mem step hlater)]

end Service

/-- From the moment a coordinator is made, its counters account for everything that has passed between it and those
who call on it, modulo the size of a word: every heartbeat is answered, and is counted as taken or rejected by its
answer; what is dispatched is what the commands of all answers bring; a recovery that was queued already is counted by
its answer. Reports on unknown volumes are counted for all nodes that are alive and allowed, and so for all that are
alive where nobody turns a node away. No operation of the coordinator itself turns one away: others do, on the node. So
the last clause is about every run of its operations. -/
theorem counters_account_for_history {s : Service} (hs : Reachable s) (limits : Limits) {steps : List Step}
    (hsteps : s.Legal (.makeCoordinator limits :: steps)) :
    let c : CoordinatorRef := ⟨s.ledger.coordinators.size⟩
    let made := (Step.makeCoordinator limits).after s
    let shown := ((made.run steps).ledger.coordinator c).metrics.counter
    let answers := made.along (Step.answers c) steps
    let commands := answers.flatMap fun answer => answer.toOption.getD []
    answers.length = steps.countP (Step.isHeartbeat c) ∧
      shown .heartbeatsTotal + shown .rejectedHeartbeats = UInt64.ofNat answers.length ∧
      shown .rejectedHeartbeats = UInt64.ofNat (answers.countP fun answer => !answer.isOk) ∧
      shown .blocksToReplicateDispatched = UInt64.ofNat (commands.flatMap Command.transfers).length ∧
      shown .blocksToRecoverDispatched = UInt64.ofNat (commands.flatMap Command.recoveries).length ∧
      shown .blocksToInvalidateDispatched = UInt64.ofNat (commands.flatMap Command.invalidations).length ∧
      shown .duplicateRecoverySubmissions =
        UInt64.ofNat ((made.along (Step.offers c) steps).countP fun offer => offer.toOption = some false) ∧
      shown .unknownStorageReports =
        UInt64.ofNat (made.along (Step.unknownReports c fun node => node.alive && !node.disallowed) steps).length ∧
      ((∀ step ∈ steps, ¬ step.disallows) →
        shown .unknownStorageReports = UInt64.ofNat (made.along (Step.unknownReports c Node.alive) steps).length) := by
  intro c made shown answers commands
  have hmade : Reachable made := hs.step hsteps.1
  have hc : c.index < made.ledger.coordinators.size := by
    have hsize : made.ledger.coordinators.size = s.ledger.coordinators.size + 1 := Array.size_push ..
    rw [hsize]
    exact Nat.lt_succ_self _
  have hold : s.ledger.coordinator c = default := Ledger.coordinator_of_le (Nat.le_refl _)
  have hempty : (made.ledger.coordinator c).nodes = {} := by
    rcases Ledger.coordinator_addCoordinator_cases s.ledger limits c with hsame | hempty
    · refine (congrArg Coordinator.nodes hsame).trans ?_
      rw [hold]
      rfl
    · exact hempty
  have hcounter : ∀ x, shown x = UInt64.ofNat (x.counted answers (made.along (Step.unknownReports c Node.heeded) steps)
      (made.along (Step.offers c) steps)) := by
    intro x
    have hzero : made.ledger.counter c x = 0 := by
      refine (Ledger.keepsCounters_addCoordinator s.ledger limits c x).trans ?_
      unfold Ledger.counter
      rw [hold]
      cases x <;> rfl
    have hrun := Service.counter_run hmade hc hsteps.2 x
    rw [hzero, UInt64.zero_add] at hrun
    exact hrun
  have hallowed : made.ledger.Allowed c := by
    intro uuid n hn
    rw [hempty] at hn
    cases hn
  refine ⟨Service.length_answers hmade c hsteps.2, ?_, hcounter _, hcounter _, hcounter _, hcounter _, hcounter _,
    hcounter _, fun hdisallows => ?_⟩
  · rw [hcounter, hcounter, ← UInt64.ofNat_add, List.length_eq_countP_add_countP fun answer => answer.isOk]
    simp only [Counter.counted, decide_not, Bool.decide_eq_true]
  · rw [hcounter, Service.unknownReports_eq hmade hc hallowed hsteps.2 hdisallows]
    rfl

/-- A node calls before it is known, registers, is handed a recovery (but not its duplicate) and then the rest of its
work, and calls again once it has been declared dead. Twice it reports a volume that it has not announced. -/
def busyNode : List Step :=
  let report (id : String) : StorageReport :=
    { storage := { id }, capacity := 10, dfsUsed := 4, remaining := 6, blockPoolUsed := 4 }
  [.heartbeat ⟨0⟩ "n" {}, .register ⟨0⟩ (.ofAddress "n" "10.0.0.1" 9866) [{ id := "A" }],
    .makeOpenBlock { block := ⟨7, 70, 1⟩ }, .addRecoveryOn ⟨0⟩ "n" ⟨0⟩, .addRecoveryOn ⟨0⟩ "n" ⟨0⟩,
    .addTransfer ⟨0⟩ ⟨1, 10, 1⟩ [⟨0⟩], .addInvalidations ⟨0⟩ [⟨2, 20, 1⟩, ⟨3, 30, 1⟩],
    .heartbeat ⟨0⟩ "n" { reports := [report "A", report "X"] }, .heartbeat ⟨0⟩ "n" {},
    .checkHeartbeats ⟨0⟩ 1000000, .heartbeat ⟨0⟩ "n" { reports := [report "X"] }]

theorem counters_account_for_history_busy :
    let made := (Step.makeCoordinator {}).after {}
    let shown := ((made.run busyNode).ledger.coordinator ⟨0⟩).metrics.counter
    (made.along (Step.answers ⟨0⟩) busyNode).map (fun answer => answer.toOption.map (List.map Command.shown)) =
        [none, some ["recover(1)"], some ["replicate(1)", "invalidate(2)"], some ["register"]] ∧
      shown .heartbeatsTotal + shown .rejectedHeartbeats = 4 ∧ shown .rejectedHeartbeats = 1 ∧
      shown .blocksToReplicateDispatched = 1 ∧ shown .blocksToRecoverDispatched = 1 ∧
      shown .blocksToInvalidateDispatched = 2 ∧ shown .duplicateRecoverySubmissions = 1 ∧
      shown .unknownStorageReports = 1 := by
  intro made shown
  have hlegal : ({} : Service).Legal (.makeCoordinator {} :: busyNode) := by decide +kernel
  obtain ⟨-, htotal, hrejected, htransfers, hrecoveries, hinvalidations, hduplicates, -, hunknown⟩ :=
    counters_account_for_history (.start 0) {} hlegal
  have hanswers : (made.along (Step.answers ⟨0⟩) busyNode).length = 4 := by decide +kernel
  refine ⟨by decide +kernel, htotal.trans (congrArg UInt64.ofNat hanswers), hrejected.trans ?_, htransfers.trans ?_,
    hrecoveries.trans ?_, hinvalidations.trans ?_, hduplicates.trans ?_, (hunknown (by decide +kernel)).trans ?_⟩
  all_goals decide +kernel

end DatanodeLedger
