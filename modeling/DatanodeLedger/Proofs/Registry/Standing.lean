import DatanodeLedger.Proofs.Registry.Operations

/-! What each step makes of the standing of a node. No other step has anything to do with the work that waits for
the node, its notices, its decommission, and whether it is alive and allowed. -/
namespace DatanodeLedger

namespace Ledger
variable {l : Ledger} {c : CoordinatorRef} {m n : NodeRef}

theorem node_modifyNode_ite (hm : m.index < l.nodes.size) (f : Node → Node) (n : NodeRef) :
    (l.modifyNode m f).node n = if m = n then f (l.node n) else l.node n := by
  split
  case isTrue h => exact h ▸ node_modifyNode hm f
  case isFalse h => exact node_modifyNode_of_ne (Ne.symm h) f

/-- Of nodes that are all different each is changed once. -/
theorem node_foldl_modifyNode {ns : List NodeRef} (hnodup : ns.Nodup) (hmade : ∀ m ∈ ns, m.index < l.nodes.size)
    (f : Node → Node) (n : NodeRef) : (ns.foldl (fun l m => l.modifyNode m f) l).node n =
      if n ∈ ns then f (l.node n) else l.node n := by
  induction ns generalizing l with
  | nil => rfl
  | cons m ns ih =>
    obtain ⟨hm, hnodup⟩ := List.nodup_cons.1 hnodup
    have hsize : (l.modifyNode m f).nodes.size = l.nodes.size := Array.size_modify
    have hrest := ih (l := l.modifyNode m f) hnodup fun k hk => hsize ▸ hmade k (List.mem_cons_of_mem m hk)
    rw [List.foldl_cons, hrest, node_modifyNode_ite (hmade m List.mem_cons_self)]
    by_cases hmn : m = n
    · subst hmn
      rw [if_neg hm, if_pos rfl, if_pos List.mem_cons_self]
    · have hmem : n ∈ m :: ns ↔ n ∈ ns := List.mem_cons.trans (or_iff_right (Ne.symm hmn))
      simp only [if_neg hmn, hmem]

/-- The standing of a node stays as it is. -/
def KeepsStanding (n : NodeRef) (l l' : Ledger) : Prop := (l'.node n).standing = (l.node n).standing

instance : IsPreorder Ledger (KeepsStanding n) where
  refl _ := rfl
  trans _ _ _ h h' := Eq.trans h' h

instance : Request.Aloof (KeepsStanding n) where
  aside h := node_modifyNode_congr Node.standing h.standing n
  storage _ := rfl
  counter _ _ _ _ := rfl
  guarded h _ := Request.guarded_of_modifyLock (fun _ _ _ => rfl) h
  announce {l m a} _ :=
    node_modifyNode_congr (l := (l.addStorage (.announced (l.node m).uuid a)).2) Node.standing rfl n

/-- A node that has not been made has the standing of one that has just been made. -/
theorem keepsStanding_addNode (l : Ledger) (r : Registration) (location : String) :
    KeepsStanding n l (l.addNode { Node.ofRegistration r with location }).2 := by
  rcases node_addNode_cases l { Node.ofRegistration r with location } n with h | ⟨hnew, h⟩
  · exact congrArg Node.standing h
  · have hold : l.node n = default := node_of_le (Nat.le_of_eq hnew.symm)
    unfold KeepsStanding
    rw [h, hold]
    rfl

theorem keepsStanding_hear (l : Ledger) (m : NodeRef) (storages : List Announcement) :
    KeepsStanding n l (l.hear m storages) :=
  trans_of (KeepsStanding n) (rel_updateStorages l m storages) (node_modifyNode_congr Node.standing rfl n)

theorem standing_settle (hm : m.index < l.nodes.size) (c : CoordinatorRef) (storages : List Announcement) :
    ((l.settle c m storages).node n).standing =
      if m = n then { (l.node n).standing with alive := true } else (l.node n).standing := by
  have hear : (l.hear m storages |>.node n).standing = (l.node n).standing := keepsStanding_hear l m storages
  have hsize : l.nodes.size ≤ (l.hear m storages).nodes.size :=
    (rel_hear (allowsLife_keepsRegistries c m).hearing l storages : l.KeepsRegistries _).size
  have hmade : m.index < (l.hear m storages).nodes.size := Nat.lt_of_lt_of_le hm hsize
  unfold settle
  rw [node_revive _ c hmade, ← hear]
  by_cases hmn : m = n
  · rw [if_pos hmn, if_pos hmn.symm]
    rfl
  · rw [if_neg hmn, if_neg (Ne.symm hmn)]

theorem standing_enroll (l : Ledger) (c : CoordinatorRef) (r : Registration) :
    ((l.enroll c r).node n).standing = (l.node n).standing := by
  have hnew : KeepsStanding n l (l.addNode (Node.ofRegistration r)).2 := keepsStanding_addNode l r _
  exact (node_modifyNode_congr Node.standing rfl n).trans hnew

theorem keepsStanding_modifyStorages (l : Ledger) (vs : List StorageRef) (f : Storage → Storage) :
    KeepsStanding n l (l.modifyStorages vs f) := by
  induction vs generalizing l with
  | nil => rfl
  | cons v vs ih => exact ih (l.modifyStorage v f)

theorem standing_welcome (hm : m.index < l.nodes.size) (c : CoordinatorRef) (r : Registration) :
    ((l.welcome c m r).node n).standing =
      if m = n then (l.node n).forgetReports.standing else (l.node n).standing := by
  have haddress : ((l.readdress m r).node n).standing = (l.node n).standing :=
    trans_of (KeepsStanding n) (node_modifyNode_congr Node.standing rfl n) (keepsStanding_modifyStorages _ _ _)
  have hmade : m.index < (l.readdress m r).nodes.size := Nat.lt_of_lt_of_le hm (keepsRegistries_readdress l m r).size
  have hclear : ∀ (l : Ledger) lock, (((l.clearCache m).release lock).node n).standing = (l.node n).standing :=
    fun l lock => node_modifyNode_congr (l := l) Node.standing rfl n
  have htake : ∀ (l : Ledger) lock f, ((l.take lock).modifyNode m f).node n = (l.modifyNode m f).node n :=
    fun _ _ _ => rfl
  have hforget : ∀ node : Node, node.forgetReports.standing = { node.standing with invalidations := {} } :=
    fun _ => rfl
  unfold welcome
  rw [hclear, htake, node_modifyNode_ite hmade]
  split
  case isTrue => rw [hforget, hforget, haddress]
  case isFalse => exact haddress

theorem node_beat_of_ne (hm : m ≠ n) (c : CoordinatorRef) (h : Heartbeat) : (l.beat c m h).node n = l.node n := by
  unfold beat setNode
  rw [node_count, node_modifyNode_of_ne (Ne.symm hm), node_takeReports]

end Ledger

namespace Request
variable {s : Service}

theorem exec_modifyAll (c : CoordinatorRef) (f : Node → Node) (s : Service) : (modifyAll c f).exec s =
    (.ok ⟨⟩, ⟨(s.ledger.coordinator c).nodes.values.foldl (fun l n => l.modifyNode n f) s.ledger, s.journal⟩) := by
  have hloop : ∀ (ns : List NodeRef) (s : Service), (ns.forM fun n => modifyNode n f).exec s =
      (.ok ⟨⟩, ⟨ns.foldl (fun l n => l.modifyNode n f) s.ledger, s.journal⟩) := by
    intro ns
    induction ns with
    | nil => exact fun _ => rfl
    | cons n ns ih => exact fun s => ih ⟨s.ledger.modifyNode n f, s.journal⟩
  unfold modifyAll
  rw [exec_bind_ok (exec_coordinator ..)]
  exact hloop _ s

end Request

namespace Step
variable {s : Service} {n : NodeRef}

/-- What a step makes of a node, as far as its standing goes. -/
def turn (l : Ledger) (n : NodeRef) : Step → Node
  | changeNode m change => if m = n then change.apply (l.node n) else l.node n
  | addTransfer m block targets =>
    if m = n ∧ targets ≠ [] then (l.node n).addTransfer { block, targets } else l.node n
  | addRecovery m b => if m = n then { l.node n with recoveries := (l.offer n b).2 } else l.node n
  | addInvalidations m bs =>
    if m = n then { l.node n with invalidations := ((l.node n).invalidations.addAll bs).2 } else l.node n
  | resetBlocks _ m => if m = n then (l.node n).forgetReports else l.node n
  | clearQueues _ m => if m = n then (l.node n).dropWork else l.node n
  | register c r _ =>
    match (l.coordinator c).nodes.find? r.uuid with
    | none => if ⟨l.nodes.size⟩ = n then { l.node n with alive := true } else l.node n
    | some m => if m = n then { (l.node n).forgetReports with alive := true } else l.node n
  | removeNode c uuid =>
    if (l.coordinator c).nodes.find? uuid = some n then { (l.node n).dropWork with alive := false } else l.node n
  | heartbeat c uuid h =>
    if (l.coordinator c).nodes.find? uuid = some n ∧ (l.node n).disallowed = false ∧ (l.node n).alive = true then
      (((l.node n).receive l.now h).serve (l.coordinator c).limits).2.2
    else l.node n
  | checkHeartbeats c now =>
    match (l.coordinator c).limits.expiry with
    | .ok expiry => if n ∈ l.expired c now expiry then { l.node n with alive := false } else l.node n
    | .error _ => l.node n
  | setBandwidth c bandwidth => if n ∈ (l.coordinator c).nodes.values then { l.node n with bandwidth } else l.node n
  | requestKeyUpdate c =>
    if n ∈ (l.coordinator c).nodes.values then { l.node n with keyUpdate := true } else l.node n
  | addRecoveryOn c uuid b =>
    if (l.coordinator c).nodes.find? uuid = some n then { l.node n with recoveries := (l.offer n b).2 } else l.node n
  | _ => l.node n

/-- The cases of what a step makes of a node: nothing, or the one thing that it does to the node it is about. -/
inductive Turned (l : Ledger) (n : NodeRef) : Step → Node → Prop
  | untouched (step : Step) : Turned l n step (l.node n)
  | changed (change : Node.Change) : Turned l n (changeNode n change) (change.apply (l.node n))
  | transfer (block : Block) (targets : List StorageRef) :
    Turned l n (addTransfer n block targets) ((l.node n).addTransfer { block, targets })
  | recovery (b : OpenRef) : Turned l n (addRecovery n b) { l.node n with recoveries := (l.offer n b).2 }
  | recoveryOn {c : CoordinatorRef} {uuid : String} (b : OpenRef)
    (hfind : (l.coordinator c).nodes.find? uuid = some n) :
    Turned l n (addRecoveryOn c uuid b) { l.node n with recoveries := (l.offer n b).2 }
  | invalidations (bs : List Block) : Turned l n (addInvalidations n bs)
    { l.node n with invalidations := ((l.node n).invalidations.addAll bs).2 }
  | reset (g : Guard) : Turned l n (resetBlocks g n) (l.node n).forgetReports
  | cleared (g : Guard) : Turned l n (clearQueues g n) (l.node n).dropWork
  | entered {c : CoordinatorRef} {r : Registration} {storages : List Announcement} (hnew : ⟨l.nodes.size⟩ = n) :
    Turned l n (register c r storages) { l.node n with alive := true }
  | readmitted {c : CoordinatorRef} {r : Registration} {storages : List Announcement}
    (hfind : (l.coordinator c).nodes.find? r.uuid = some n) :
    Turned l n (register c r storages) { (l.node n).forgetReports with alive := true }
  | removed {c : CoordinatorRef} {uuid : String} (hfind : (l.coordinator c).nodes.find? uuid = some n) :
    Turned l n (removeNode c uuid) { (l.node n).dropWork with alive := false }
  | served {c : CoordinatorRef} {uuid : String} (h : Heartbeat)
    (hfind : (l.coordinator c).nodes.find? uuid = some n) :
    Turned l n (heartbeat c uuid h) (((l.node n).receive l.now h).serve (l.coordinator c).limits).2.2
  | expired {c : CoordinatorRef} {now expiry : UInt64} (hexpiry : (l.coordinator c).limits.expiry = .ok expiry)
    (hmem : n ∈ l.expired c now expiry) : Turned l n (checkHeartbeats c now) { l.node n with alive := false }
  | bandwidth {c : CoordinatorRef} (bandwidth : UInt64) (hmem : n ∈ (l.coordinator c).nodes.values) :
    Turned l n (setBandwidth c bandwidth) { l.node n with bandwidth }
  | keyUpdate {c : CoordinatorRef} (hmem : n ∈ (l.coordinator c).nodes.values) :
    Turned l n (requestKeyUpdate c) { l.node n with keyUpdate := true }

private theorem Turned.ite {l : Ledger} {n : NodeRef} {step : Step} {node : Node} {p : Prop} [Decidable p]
    (h : p → Turned l n step node) : Turned l n step (if p then node else l.node n) := by
  split
  case isTrue hp => exact h hp
  case isFalse => exact .untouched step

theorem turned (l : Ledger) (n : NodeRef) (step : Step) : Turned l n step (step.turn l n) := by
  cases step with
  | changeNode m change => exact .ite fun hm => hm ▸ .changed change
  | addTransfer m block targets => exact .ite fun h => h.1 ▸ .transfer block targets
  | addRecovery m b => exact .ite fun hm => hm ▸ .recovery b
  | addInvalidations m bs => exact .ite fun hm => hm ▸ .invalidations bs
  | resetBlocks g m => exact .ite fun hm => hm ▸ .reset g
  | clearQueues g m => exact .ite fun hm => hm ▸ .cleared g
  | register c r storages =>
    rw [turn]
    cases hfind : (l.coordinator c).nodes.find? r.uuid with
    | none => exact .ite fun hnew => .entered hnew
    | some m => exact .ite fun hm => .readmitted (hm ▸ hfind)
  | removeNode c uuid => exact .ite fun hfind => .removed hfind
  | heartbeat c uuid h => exact .ite fun hlive => .served h hlive.1
  | checkHeartbeats c now =>
    rw [turn]
    cases hexpiry : (l.coordinator c).limits.expiry with
    | ok expiry => exact .ite fun hmem => .expired hexpiry hmem
    | error e => exact .untouched _
  | setBandwidth c bandwidth => exact .ite fun hmem => .bandwidth bandwidth hmem
  | requestKeyUpdate c => exact .ite fun hmem => .keyUpdate hmem
  | addRecoveryOn c uuid b => exact .ite fun hfind => .recoveryOn b hfind
  | _ => exact .untouched _

open Ledger (KeepsStanding)

/-- The steps that make something of some node. -/
def Turns : Step → Prop
  | changeNode .. | addTransfer .. | addRecovery .. | addInvalidations .. | resetBlocks .. | clearQueues ..
  | register .. | removeNode .. | heartbeat .. | checkHeartbeats .. | setBandwidth .. | requestKeyUpdate _
  | addRecoveryOn .. => True
  | _ => False

private theorem keepsStanding_after (ho : s.ledger.Orderly) {step : Step} (hstep : step.Enabled s.ledger)
    (hturns : ¬ step.Turns) : KeepsStanding n s.ledger (step.after s).ledger := by
  have hdetach : ∀ (l : Ledger) v b removed l', l.detach v b = .ok (removed, l') → KeepsStanding n l l' :=
    Request.rel_detach fun _ _ _ _ _ => rfl
  have hattach : ∀ (l : Ledger) v b added l', l.attach v b = .ok (added, l') → KeepsStanding n l l' :=
    Request.rel_attach fun _ _ _ _ _ => rfl
  cases step with
  | makeNode r location => exact Ledger.keepsStanding_addNode s.ledger r location
  | advance r => exact Request.respects_advance (fun _ _ => rfl) r s
  | updateStorage m a => exact Request.idle_updateStorage m a s
  | updateHeartbeat m h =>
    have hafter := ledger_updateHeartbeat (ho.held m hstep) h
    have hkept : ((s.ledger.node m).receive s.ledger.now h).standing =
        ((s.ledger.takeReports m s.ledger.now h.reports).node m).standing := by
      rw [Ledger.node_takeReports]
      rfl
    unfold KeepsStanding
    rw [hafter, ← Ledger.node_takeReports s.ledger m s.ledger.now h.reports n]
    exact Ledger.node_modifyNode_congr Node.standing hkept n
  | bind | updateRegistration | receiveBlockReport | cache | addBlock | removeBlock | removeBlockFrom | replaceBlock
  | removeAllBlocks | addReportedBlock => exact respects_of_isReserved trivial hdetach fun _ => hattach
  | _ => first | exact (hturns trivial).elim | rfl

private theorem standing_addTransfer (ho : s.ledger.Orderly) {m : NodeRef} (hm : m ∈ s.ledger.heldNodes)
    (block : Block) (targets : List StorageRef) :
    (((addTransfer m block targets).after s).ledger.node n).standing =
      ((addTransfer m block targets).turn s.ledger n).standing := by
  cases targets with
  | nil => exact (congrArg Node.standing (if_neg fun h => h.2 rfl)).symm
  | cons t targets =>
    have hafter := Ledger.node_modifyNode_ite (ho.held m hm) (·.addTransfer { block, targets := t :: targets }) n
    have hturn : (addTransfer m block (t :: targets)).turn s.ledger n =
        if m = n then (s.ledger.node n).addTransfer { block, targets := t :: targets } else s.ledger.node n :=
      if_congr (and_iff_left (List.cons_ne_nil t targets)) rfl rfl
    rw [hturn]
    exact congrArg Node.standing hafter

/-- A recovery that is not queued leaves the queue as it is. -/
theorem offer_of_not_added {l : Ledger} {b : OpenRef} (h : (l.offer n b).1 = false) :
    (l.offer n b).2 = (l.node n).recoveries := by
  unfold Ledger.offer Work.Queue.offerIfAbsent at h ⊢
  split at h
  case isTrue hqueued => rw [if_pos hqueued]
  case isFalse => cases h

private theorem node_queue {l : Ledger} {m : NodeRef} (hm : m.index < l.nodes.size) (c : CoordinatorRef)
    (b : OpenRef) : (l.queue c m b).node n =
      if m = n then { l.node n with recoveries := (l.offer n b).2 } else l.node n := by
  unfold Ledger.queue
  cases hadded : (l.offer m b).1 with
  | true =>
    simp only [if_true]
    rw [Ledger.node_modifyNode_ite hm]
    split
    case isTrue h => rw [h]
    case isFalse => rfl
  | false =>
    simp only [Bool.false_eq_true, if_false]
    rw [Ledger.node_count]
    split
    case isTrue h => rw [← h, offer_of_not_added hadded]
    case isFalse => rfl

private theorem standing_addRecovery (ho : s.ledger.Orderly) {m : NodeRef} (hm : m ∈ s.ledger.heldNodes)
    (b : OpenRef) : (((addRecovery m b).after s).ledger.node n).standing =
      ((addRecovery m b).turn s.ledger n).standing := by
  have hsame : ∀ c, ((addRecovery m b).after s).ledger.node n = (s.ledger.queue c m b).node n := by
    intro c
    have hoffer : (s.ledger.node m).recoveries.offerIfAbsent
        (fun a b => (s.ledger.openBlock a).block.same (s.ledger.openBlock b).block) b = s.ledger.offer m b := rfl
    have hafter : (addRecovery m b).after s = ((Request.addRecovery m b).exec s).2 := rfl
    rw [hafter]
    unfold Request.addRecovery Ledger.queue
    rw [Request.exec_bind_ok (Request.exec_ledger _)]
    simp only [hoffer]
    cases hadded : (s.ledger.offer m b).1 with
    | true => rfl
    | false => exact (Ledger.node_count ..).symm
  rw [hsame ⟨0⟩, node_queue (ho.held m hm)]
  rfl

private theorem standing_addInvalidations (ho : s.ledger.Orderly) {m : NodeRef} (hm : m ∈ s.ledger.heldNodes)
    (bs : List Block) : (((addInvalidations m bs).after s).ledger.node n).standing =
      ((addInvalidations m bs).turn s.ledger n).standing := by
  have hafter : (addInvalidations m bs).after s = ((Request.addInvalidations m bs).exec s).2 := rfl
  rw [hafter, turn]
  unfold Request.addInvalidations Node.addInvalidations
  rw [Request.exec_bind_ok (Request.exec_node ..)]
  cases bs with
  | nil =>
    simp only [List.isEmpty_nil, if_true]
    split <;> rfl
  | cons b bs =>
    have hafter := Ledger.node_modifyNode_ite (ho.held m hm) (fun _ =>
      { s.ledger.node m with invalidations := ((s.ledger.node m).invalidations.addAll (b :: bs)).2 }) n
    refine (congrArg Node.standing hafter).trans ?_
    split
    case isTrue h => rw [h]
    case isFalse => rfl

/-- What is done under a guard to the cache lists has nothing to do with the change of the node before. -/
private theorem standing_modifyNode_clearCache (ho : s.ledger.Orderly) {m : NodeRef} (hm : m ∈ s.ledger.heldNodes)
    (g : Guard) (f : Node → Node) :
    (((do Request.modifyNode m f; Request.clearCache g m : Request PUnit).exec s).2.ledger.node n).standing =
      (if m = n then f (s.ledger.node n) else s.ledger.node n).standing := by
  have hclear : Request.Respects (KeepsStanding n) (Request.clearCache g m) := Request.idle_cache m g _
  exact (hclear ⟨s.ledger.modifyNode m f, s.journal⟩).trans
    (congrArg Node.standing (Ledger.node_modifyNode_ite (ho.held m hm) f n))

private theorem standing_register (h : s.ledger.Enrolled) (c : CoordinatorRef) (r : Registration)
    (storages : List Announcement) : (((register c r storages).after s).ledger.node n).standing =
      ((register c r storages).turn s.ledger n).standing := by
  cases hfind : (s.ledger.coordinator c).nodes.find? r.uuid with
  | none =>
    have hafter := ledger_register_of_none hfind storages
    have hsize : s.ledger.nodes.size < (s.ledger.enroll c r).nodes.size :=
      Nat.lt_of_lt_of_eq (Nat.lt_succ_self _) (s.ledger.size_bound c r).symm
    rw [hafter, Ledger.standing_settle (m := ⟨s.ledger.nodes.size⟩) hsize, Ledger.standing_enroll, turn, hfind]
    simp only
    split <;> rfl
  | some m =>
    have hafter := ledger_register_of_some h hfind storages
    have hmade := h.made c r.uuid m hfind
    have hwelcome : s.ledger.KeepsRegistries (s.ledger.welcome c m r) := Ledger.rel_welcome h hfind
    rw [hafter, Ledger.standing_settle (Nat.lt_of_lt_of_le hmade hwelcome.size), Ledger.standing_welcome hmade, turn,
      hfind]
    simp only
    split <;> rfl

private theorem standing_removeNode (hl : s.ledger.Coherent) (h : s.ledger.Enrolled) (c : CoordinatorRef)
    (uuid : String) : (((removeNode c uuid).after s).ledger.node n).standing =
      ((removeNode c uuid).turn s.ledger n).standing := by
  cases hfind : (s.ledger.coordinator c).nodes.find? uuid with
  | none =>
    have hafter := after_removeNode_of_none hfind
    rw [hafter, turn, hfind, if_neg fun h => nomatch h]
  | some m =>
    have hafter := ledger_removeNode_of_some hl h hfind
    rw [hafter, Ledger.node_dismiss, turn, hfind]
    by_cases hm : n = m
    · subst hm
      rw [if_pos rfl, if_pos rfl, Ledger.node_strip_self (h.made c uuid n hfind)]
      rfl
    · rw [if_neg hm, if_neg fun h => hm (Option.some.inj h).symm, Ledger.node_strip_of_ne hm]

private theorem standing_heartbeat (h : s.ledger.Enrolled) (c : CoordinatorRef) (uuid : String) (beat : Heartbeat) :
    (((heartbeat c uuid beat).after s).ledger.node n).standing =
      ((heartbeat c uuid beat).turn s.ledger n).standing := by
  have hafter := ledger_heartbeat (c := c) h uuid beat
  rw [hafter, turn]
  unfold Ledger.heartbeat
  cases hfind : (s.ledger.coordinator c).nodes.find? uuid with
  | none =>
    rw [if_neg fun h => nomatch h.1]
    exact congrArg Node.standing (Ledger.node_count ..)
  | some m =>
    simp only [Option.some.injEq]
    by_cases hm : m = n
    · subst hm
      cases hallowed : (s.ledger.node m).disallowed with
      | true =>
        simp only [if_true, Bool.true_eq_false, false_and, and_false, if_false]
        exact congrArg Node.standing (Ledger.node_count ..)
      | false =>
        cases halive : (s.ledger.node m).alive with
        | true =>
          simp only [Bool.false_eq_true, if_false, if_true, and_self]
          exact congrArg Node.standing (Ledger.node_beat (h.made c uuid m hfind) c beat)
        | false =>
          simp only [Bool.false_eq_true, if_false, and_false]
          exact congrArg Node.standing (Ledger.node_count ..)
    · simp only [hm, false_and, if_false]
      cases (s.ledger.node m).disallowed with
      | true => exact congrArg Node.standing (Ledger.node_count ..)
      | false =>
        simp only [Bool.false_eq_true, if_false]
        cases (s.ledger.node m).alive with
        | true => exact congrArg Node.standing (Ledger.node_beat_of_ne hm c beat)
        | false => exact congrArg Node.standing (Ledger.node_count ..)

private theorem standing_checkHeartbeats (h : s.ledger.Enrolled) (c : CoordinatorRef) (now : UInt64) :
    (((checkHeartbeats c now).after s).ledger.node n).standing =
      ((checkHeartbeats c now).turn s.ledger n).standing := by
  rw [turn]
  cases hexpiry : (s.ledger.coordinator c).limits.expiry with
  | error e =>
    have hafter := after_checkHeartbeats_of_error hexpiry now
    rw [hafter]
  | ok expiry =>
    have hafter := ledger_checkHeartbeats h hexpiry now
    rw [hafter, Ledger.node_killAll]

private theorem standing_modifyAll (h : s.ledger.Enrolled) (c : CoordinatorRef) (f : Node → Node) :
    (((Request.modifyAll c f).exec s).2.ledger.node n).standing =
      (if n ∈ (s.ledger.coordinator c).nodes.values then f (s.ledger.node n) else s.ledger.node n).standing := by
  have hmade : ∀ m ∈ (s.ledger.coordinator c).nodes.values, m.index < s.ledger.nodes.size :=
    fun m hm => h.made c _ m (h.mem_values_iff.1 hm)
  rw [Request.exec_modifyAll]
  exact congrArg Node.standing (Ledger.node_foldl_modifyNode (h.values_nodup c) hmade f n)

/-- After a step, the standing of every node is what the step makes of it. -/
theorem standing_after (hs : Reachable s) {step : Step} (hstep : step.Enabled s.ledger) (n : NodeRef) :
    ((step.after s).ledger.node n).standing = (step.turn s.ledger n).standing := by
  have ho := hs.orderly
  have h := hs.enrolled
  by_cases hturns : step.Turns
  · cases step with
    | changeNode m change =>
      exact congrArg Node.standing (Ledger.node_modifyNode_ite (ho.held m hstep) change.apply n)
    | addTransfer m block targets => exact standing_addTransfer ho hstep.1 block targets
    | addRecovery m b => exact standing_addRecovery ho hstep b
    | addInvalidations m bs => exact standing_addInvalidations ho hstep bs
    | resetBlocks g m => exact standing_modifyNode_clearCache ho hstep g Node.forgetReports
    | clearQueues g m => exact standing_modifyNode_clearCache ho hstep g Node.dropWork
    | register c r storages => exact standing_register h c r storages
    | removeNode c uuid => exact standing_removeNode hs.coherent h c uuid
    | heartbeat c uuid beat => exact standing_heartbeat h c uuid beat
    | checkHeartbeats c now => exact standing_checkHeartbeats h c now
    | setBandwidth c bandwidth => exact standing_modifyAll h c _
    | requestKeyUpdate c => exact standing_modifyAll h c _
    | addRecoveryOn c uuid b =>
      obtain ⟨journal, he⟩ := Request.exec_addRecoveryOn_eq (c := c) (s := s) uuid b
      have hafter : ((addRecoveryOn c uuid b).after s).ledger = (s.ledger.recover c uuid b).2 :=
        congrArg (fun x => x.2.ledger) he
      rw [hafter, turn]
      unfold Ledger.recover
      cases hfind : (s.ledger.coordinator c).nodes.find? uuid with
      | none => rw [if_neg fun h => nomatch h]
      | some m =>
        simp only [Option.some.injEq]
        rw [node_queue (h.made c uuid m hfind)]
    | _ => exact hturns.elim
  · have hkept := keepsStanding_after (n := n) ho hstep hturns
    cases step with
    | _ => first | exact (hturns trivial).elim | exact hkept

/-- Only its callers decide whether a node is allowed and how far its decommission is. -/
theorem Turned.administration {l : Ledger} {step : Step} {node : Node} (h : Turned l n step node)
    (hother : ∀ change, step ≠ changeNode n change) :
    node.disallowed = (l.node n).disallowed ∧ node.decommission = (l.node n).decommission := by
  cases h with
  | changed change => exact (hother change rfl).elim
  | served beat => exact Node.serve_life.2
  | _ => exact ⟨rfl, rfl⟩

/-- A step is a direct change of a node, or leaves to it what its callers decide. -/
theorem turn_cases (l : Ledger) (n : NodeRef) (step : Step) :
    (∃ change, step = changeNode n change ∧ step.turn l n = change.apply (l.node n)) ∨
      (∀ change, step ≠ changeNode n change) ∧ (step.turn l n).disallowed = (l.node n).disallowed ∧
        (step.turn l n).decommission = (l.node n).decommission := by
  by_cases hother : ∀ change, step ≠ changeNode n change
  · exact .inr ⟨hother, (turned l n step).administration hother⟩
  · obtain ⟨change, hchange⟩ := not_forall.1 hother
    obtain rfl := not_not.1 hchange
    exact .inl ⟨change, rfl, if_pos rfl⟩

end Step
end DatanodeLedger
