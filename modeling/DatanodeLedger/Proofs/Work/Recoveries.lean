import DatanodeLedger.Proofs.Registry.Standing
import DatanodeLedger.Proofs.Work.Conservation

/-! A block waits for recovery once on every node. Records that are handed in are told apart by the ids of their
blocks only, which no step changes, and a record is refused exactly while one with the same id waits. -/
namespace DatanodeLedger

namespace Ledger
variable {l l' : Ledger} {n : NodeRef} {b : OpenRef}

/-- The id by which a block that is being written is known. -/
def openId (l : Ledger) (b : OpenRef) : UInt64 := (l.openBlock b).block.id

/-- Blocks that are being written are never unmade, and keep their ids. -/
structure KeepsOpenIds (l l' : Ledger) : Prop where
  size : l.openBlocks.size ≤ l'.openBlocks.size
  openId : ∀ b : OpenRef, b.index < l.openBlocks.size → l'.openId b = l.openId b

theorem keepsOpenIds_of_eq (h : l'.openBlocks = l.openBlocks) : l.KeepsOpenIds l' := by
  refine ⟨Nat.le_of_eq (congrArg Array.size h.symm), fun b _ => ?_⟩
  unfold Ledger.openId openBlock
  rw [h]

theorem keepsOpenIds_addOpenBlock (l : Ledger) (b : OpenBlock) : l.KeepsOpenIds (l.addOpenBlock b).2 := by
  have hsize : (l.addOpenBlock b).2.openBlocks.size = l.openBlocks.size + 1 := Array.size_push ..
  refine ⟨hsize ▸ Nat.le_succ _, fun r hr => ?_⟩
  have hget : (l.addOpenBlock b).2.openBlocks[r.index]? = l.openBlocks[r.index]? :=
    (Array.getElem?_push_lt hr).trans (Array.getElem?_eq_getElem hr).symm
  unfold Ledger.openId openBlock
  rw [hget]

theorem keepsOpenIds_modifyOpenBlock (l : Ledger) (r : OpenRef) {f : OpenBlock → OpenBlock}
    (hf : ∀ b, (f b).block = b.block) : l.KeepsOpenIds (l.modifyOpenBlock r f) := by
  refine ⟨Nat.le_of_eq Array.size_modify.symm, fun b _ => ?_⟩
  unfold Ledger.openId openBlock modifyOpenBlock
  rw [Array.getElem?_modify]
  split
  · cases l.openBlocks[b.index]? with
    | none => rfl
    | some record => exact congrArg Block.id (hf record)
  · rfl

instance : IsPreorder Ledger KeepsOpenIds where
  refl _ := keepsOpenIds_of_eq rfl
  trans _ _ _ h h' := ⟨Nat.le_trans h.size h'.size, fun b hb =>
    (h'.openId b (Nat.lt_of_lt_of_le hb h.size)).trans (h.openId b hb)⟩

instance : Request.Still KeepsOpenIds where
  node _ := keepsOpenIds_of_eq rfl
  storage _ := keepsOpenIds_of_eq rfl
  counter _ _ _ _ := keepsOpenIds_of_eq rfl
  guarded h _ := Request.guarded_of_modifyLock (fun _ _ _ => keepsOpenIds_of_eq rfl) h
  announce _ := keepsOpenIds_of_eq rfl

end Ledger
open Ledger (KeepsOpenIds)

/-- No step has to do with the ids of blocks that are being written. -/
theorem Step.keepsOpenIds_after {s : Service} {step : Step} (h : step.Enabled s.ledger) :
    s.ledger.KeepsOpenIds (step.after s).ledger := by
  have hsame : ∀ {l l' : Ledger}, l'.openBlocks = l.openBlocks → l.KeepsOpenIds l' := Ledger.keepsOpenIds_of_eq
  have hdetach : ∀ (l : Ledger) v b removed l', l.detach v b = .ok (removed, l') → l.KeepsOpenIds l' :=
    Request.rel_detach fun _ _ _ _ _ => hsame rfl
  have hattach : ∀ (l : Ledger) v b added l', l.attach v b = .ok (added, l') → l.KeepsOpenIds l' :=
    Request.rel_attach fun _ _ _ _ _ => hsame rfl
  have hwork : ∀ n, Request.AllowsCalmWork KeepsOpenIds n := fun _ _ _ _ _ _ => hsame rfl
  have hlife : ∀ c n, Request.AllowsLife KeepsOpenIds c n := fun _ _ => ⟨fun _ => hsame rfl, fun _ _ _ => hsame rfl⟩
  cases step with
  | makeOpenBlock b => exact Ledger.keepsOpenIds_addOpenBlock s.ledger b
  | beginRecovery r id => exact Ledger.keepsOpenIds_modifyOpenBlock s.ledger r fun _ => rfl
  | commit r => exact Ledger.keepsOpenIds_modifyOpenBlock s.ledger r fun _ => rfl
  | advance r => exact Request.respects_advance (fun _ _ => hsame rfl) r s
  | updateStorage n a => exact Request.idle_updateStorage n a s
  | updateHeartbeat n beat => exact Request.respects_updateHeartbeat (hlife ⟨0⟩ n).hearing beat s
  | bind | updateRegistration | receiveBlockReport | cache | addBlock | removeBlock | removeBlockFrom | replaceBlock
  | removeAllBlocks | addReportedBlock => exact respects_of_isReserved trivial hdetach fun _ => hattach
  | addTransfer | addRecovery | addInvalidations | resetBlocks | clearQueues | setBandwidth | requestKeyUpdate =>
    exact respects_of_isComposed trivial (fun n _ => hwork n) h
  | register c r storages =>
    refine Request.respects_register (hlife c) (fun s => ?_) storages s
    rw [Request.exec_enroll]
    exact hsame rfl
  | removeNode c uuid =>
    exact Request.respects_removeNode hdetach c uuid (fun n _ => hwork n) (fun _ _ => hsame rfl) (fun _ _ => hsame rfl)
      (hlife c)
  | heartbeat c uuid beat =>
    exact Request.respects_heartbeat c uuid beat (fun n _ => hwork n) fun n _ => (hlife c n).hearing
  | checkHeartbeats c now => exact Request.respects_checkHeartbeats (hlife c) now s
  | addRecoveryOn c uuid b => exact Request.respects_addRecoveryOn c uuid b fun n _ => hwork n
  | _ => exact hsame rfl

namespace Ledger
variable {l l' : Ledger} {n : NodeRef} {b : OpenRef}

/-- A recovery of the block with an id waits for a node. -/
def Awaits (l : Ledger) (n : NodeRef) (id : UInt64) : Prop := ∃ b ∈ (l.node n).recoveries.items, l.openId b = id

/-- What comes of handing a record in for recovery: it is refused if one for the same block waits, and is queued behind
the others if none does. No record changes. -/
structure Offered (n : NodeRef) (b : OpenRef) (added : Bool) (l l' : Ledger) : Prop where
  refused_iff : added = false ↔ l.Awaits n (l.openId b)
  items : (l'.node n).recoveries.items = (l.node n).recoveries.items ++ if added then [b] else []
  records : l'.openBlocks = l.openBlocks

theorem offer_eq_false_iff : (l.offer n b).1 = false ↔ l.Awaits n (l.openId b) := by
  have hcontains : (l.node n).recoveries.contains (fun a b => (l.openBlock a).block.same (l.openBlock b).block) b = true ↔
      l.Awaits n (l.openId b) :=
    List.any_eq_true.trans (exists_congr fun a => and_congr_right fun _ => beq_iff_eq)
  rw [← hcontains]
  unfold offer Work.Queue.offerIfAbsent
  split
  case isTrue h => exact iff_of_true rfl h
  case isFalse h => exact iff_of_false Bool.noConfusion h

theorem items_offer (l : Ledger) (n : NodeRef) (b : OpenRef) :
    (l.offer n b).2.items = (l.node n).recoveries.items ++ if (l.offer n b).1 then [b] else [] := by
  unfold offer Work.Queue.offerIfAbsent
  split
  · exact (List.append_nil _).symm
  · rfl

end Ledger

namespace Request
variable {s : Service} {n : NodeRef}

/-- A record that is handed in to a node is queued or refused, -/
theorem exec_addRecovery_offered (hn : n.index < s.ledger.nodes.size) (b : OpenRef) :
    ∃ added s', (addRecovery n b).exec s = (.ok added, s') ∧ s.ledger.Offered n b added s'.ledger := by
  have hoffer : (s.ledger.node n).recoveries.offerIfAbsent
      (fun a b => (s.ledger.openBlock a).block.same (s.ledger.openBlock b).block) b = s.ledger.offer n b := rfl
  have hrefused := s.ledger.offer_eq_false_iff (n := n) (b := b)
  have hitems := s.ledger.items_offer n b
  unfold addRecovery
  rw [exec_bind_ok (exec_ledger _)]
  simp only [hoffer]
  cases hadded : (s.ledger.offer n b).1 with
  | true =>
    rw [hadded] at hrefused hitems
    have hnode := Ledger.node_modifyNode hn fun node => { node with recoveries := (s.ledger.offer n b).2 }
    exact ⟨true, _, rfl, hrefused, (congrArg (fun node : Node => node.recoveries.items) hnode).trans hitems, rfl⟩
  | false =>
    rw [hadded] at hrefused
    exact ⟨false, _, rfl, hrefused, (List.append_nil _).symm, rfl⟩

/-- and so is one that is handed in to the coordinator of the node. -/
theorem exec_addRecoveryOn_offered {c : CoordinatorRef} {uuid : String}
    (hfind : (s.ledger.coordinator c).nodes.find? uuid = some n) (hn : n.index < s.ledger.nodes.size) (b : OpenRef) :
    ∃ added s', (addRecoveryOn c uuid b).exec s = (.ok (.ok added), s') ∧
      s.ledger.Offered n b added s'.ledger := by
  obtain ⟨added, s₁, he, hoffered⟩ := exec_addRecovery_offered hn b
  unfold addRecoveryOn
  rw [exec_bind_ok (exec_registered? ..), hfind]
  simp only
  rw [exec_bind_ok he]
  cases added with
  | true => exact ⟨true, s₁, rfl, hoffered⟩
  | false => exact ⟨false, _, rfl, hoffered.refused_iff, hoffered.items, hoffered.records⟩

end Request

namespace Ledger
variable {l l' : Ledger} {n : NodeRef}

/-- The recoveries that wait for a node are of blocks that have been made, and of each block only once. -/
structure Single (l : Ledger) (n : NodeRef) : Prop where
  made : ∀ b ∈ (l.node n).recoveries.items, b.index < l.openBlocks.size
  nodup : ((l.node n).recoveries.items.map l.openId).Nodup

/-- Queues get shorter at their heads only, -/
theorem Single.of_suffix (h : l.Single n) (hkeeps : l.KeepsOpenIds l')
    (hsuffix : (l'.node n).recoveries.items <:+ (l.node n).recoveries.items) : l'.Single n where
  made b hb := Nat.lt_of_lt_of_le (h.made b (hsuffix.subset hb)) hkeeps.size
  nodup := by
    have hids : (l'.node n).recoveries.items.map l'.openId = (l'.node n).recoveries.items.map l.openId :=
      List.map_congr_left fun b hb => hkeeps.openId b (h.made b (hsuffix.subset hb))
    rw [hids]
    exact (hsuffix.sublist.map l.openId).nodup h.nodup

/-- and longer by what is handed in. -/
theorem Single.of_offer (h : l.Single n) (hkeeps : l.KeepsOpenIds l') {b : OpenRef}
    (hb : b.index < l.openBlocks.size) (hitems : (l'.node n).recoveries.items = (l.offer n b).2.items) :
    l'.Single n := by
  have hmade : ∀ a ∈ (l'.node n).recoveries.items, a.index < l.openBlocks.size := by
    intro a ha
    rw [hitems, items_offer] at ha
    rcases List.mem_append.1 ha with ha | ha
    · exact h.made a ha
    · split at ha
      · exact List.mem_singleton.1 ha ▸ hb
      · exact (List.not_mem_nil ha).elim
  refine ⟨fun a ha => Nat.lt_of_lt_of_le (hmade a ha) hkeeps.size, ?_⟩
  rw [List.map_congr_left fun a ha => hkeeps.openId a (hmade a ha), hitems, items_offer]
  cases hadded : (l.offer n b).1 with
  | false =>
    simp only [Bool.false_eq_true, if_false, List.append_nil]
    exact h.nodup
  | true =>
    have hnew : ¬ l.Awaits n (l.openId b) := fun hawaits => by
      rw [offer_eq_false_iff.2 hawaits] at hadded
      cases hadded
    simp only [if_true, List.map_append, List.map_cons, List.map_nil]
    refine List.nodup_append.2 ⟨h.nodup, List.nodup_singleton _, fun id hid other hother heq => hnew ?_⟩
    obtain ⟨a, ha, rfl⟩ := List.mem_map.1 hid
    exact ⟨a, ha, heq.trans (List.mem_singleton.1 hother)⟩

end Ledger

namespace Step
variable {s : Service} {n : NodeRef}

/-- The steps that hand in a record that nobody has made. -/
def Dangles (s : Service) : Step → Prop
  | addRecovery _ b | addRecoveryOn _ _ b => s.ledger.openBlocks.size ≤ b.index
  | _ => False

instance (s : Service) (step : Step) : Decidable (step.Dangles s) := by
  rcases step <;> unfold Dangles <;> infer_instance

/-- What a step makes of the recoveries that wait for a node: some at the head are gone, or one is handed in. -/
theorem Turned.recoveries {l : Ledger} {step : Step} {node : Node} (h : Turned l n step node) :
    node.recoveries.items <:+ (l.node n).recoveries.items ∨
      ∃ b, (step = addRecovery n b ∨ ∃ c uuid, step = addRecoveryOn c uuid b) ∧
        node.recoveries = (l.offer n b).2 := by
  have hsame : (l.node n).recoveries.items <:+ (l.node n).recoveries.items := List.suffix_rfl
  have hnone : ([] : List OpenRef) <:+ (l.node n).recoveries.items := List.nil_suffix
  have hpoll : ∀ max, ((l.node n).recoveries.poll max).2.items <:+ (l.node n).recoveries.items :=
    fun max => ⟨_, (l.node n).recoveries.poll_append max⟩
  cases h with
  | changed change =>
    cases change with
    | pollRecoveries max => exact .inl (hpoll max)
    | _ => exact .inl hsame
  | recovery b => exact .inr ⟨b, .inl rfl, rfl⟩
  | @recoveryOn c uuid b => exact .inr ⟨b, .inr ⟨c, uuid, rfl⟩, rfl⟩
  | served beat =>
    rcases Node.serve_cases ((l.node n).receive l.now beat) (l.coordinator _).limits with hserve | hserve
    · rw [hserve]
      exact .inl (hpoll _)
    · rw [hserve]
      exact .inl hsame
  | cleared | removed => exact .inl hnone
  | _ => exact .inl hsame

/-- One step: each block that is to be recovered waits once, -/
theorem single_after (hs : Reachable s) (h : s.ledger.Single n) {step : Step} (hstep : step.Enabled s.ledger)
    (hmade : ¬ step.Dangles s) : (step.after s).ledger.Single n := by
  have hkeeps := keepsOpenIds_after hstep
  have hturn : ((step.after s).ledger.node n).recoveries = (step.turn s.ledger n).recoveries :=
    congrArg Node.Standing.recoveries (step.standing_after hs hstep n)
  rcases (step.turned s.ledger n).recoveries with hsuffix | ⟨b, hb, hoffer⟩
  · exact h.of_suffix hkeeps (hturn ▸ hsuffix)
  · have hlt : b.index < s.ledger.openBlocks.size := by
      rcases hb with rfl | ⟨c, uuid, rfl⟩
      · exact Nat.lt_of_not_le hmade
      · exact Nat.lt_of_not_le hmade
    exact h.of_offer hkeeps hlt (congrArg Work.Queue.items (hturn.trans hoffer))

end Step

/-- and many steps: the same. -/
theorem Service.single_run {s : Service} {n : NodeRef} (hs : Reachable s) (h : s.ledger.Single n) {steps : List Step}
    (hsteps : s.Legal steps) (hmade : s.Never Step.Dangles steps) : (s.run steps).ledger.Single n := by
  induction steps generalizing s with
  | nil => exact h
  | cons step steps ih =>
    exact ih (hs.step hsteps.1) (Step.single_after hs h hsteps.1 hmade.1) hsteps.2 hmade.2

namespace Step
variable {s : Service} {n : NodeRef} {batch : List OpenRef}

/-- A batch of recoveries that a step hands out for a node, to a caller or in the answer to a heartbeat. -/
def HandsOut (n : NodeRef) (s : Service) (batch : List OpenRef) : Step → Prop
  | changeNode m (.pollRecoveries max) =>
    m = n ∧ ((Request.takeFrom n fun node => node.pollRecoveries max).exec s).1 = .ok (some batch)
  | step => .recover batch ∈ step.sent n s

/-- What is handed out and what waits afterwards are what waited before. -/
theorem HandsOut.append (hs : Reachable s) {step : Step} (hstep : step.Enabled s.ledger)
    (h : step.HandsOut n s batch) :
    batch ++ ((step.after s).ledger.node n).recoveries.items = (s.ledger.node n).recoveries.items := by
  have hsent : ∀ {step : Step}, .recover batch ∈ step.sent n s → step.Enabled s.ledger →
      batch ++ ((step.after s).ledger.node n).recoveries.items = (s.ledger.node n).recoveries.items := by
    intro step hmem hstep
    cases step with
    | heartbeat c uuid beat =>
      have hbalanced := (heartbeat c uuid beat).balanced (n := n) hs.orderly hstep fun h => h
      rw [sent] at hmem hbalanced
      split at hmem
      case isFalse => exact (List.not_mem_nil hmem).elim
      case isTrue hfind =>
        obtain ⟨answer, he, hbatched⟩ := hs.answersInBatches c uuid beat hfind
        have hrecoveries := hbalanced.recoveries
        simp only [he, if_pos hfind] at hmem hrecoveries
        cases answer with
        | error e => exact (List.not_mem_nil hmem).elim
        | ok commands =>
          have halone : commands = [.recover batch] := (hbatched.recoveries batch hmem).2.2
          have hout : commands.flatMap Command.recoveries = batch := halone ▸ List.append_nil batch
          exact hout ▸ hrecoveries.trans (List.append_nil _)
    | _ => exact (List.not_mem_nil hmem).elim
  cases step with
  | changeNode m change =>
    cases change with
    | pollRecoveries max =>
      obtain ⟨rfl, hbatch⟩ := h
      have hpoll : ((s.ledger.node m).recoveries.poll max).1 = some batch := Except.ok.inj hbatch
      have hafter : ((changeNode m (.pollRecoveries max)).after s).ledger.node m =
          ((s.ledger.node m).pollRecoveries max).2 := Ledger.node_modifyNode (hs.orderly.held m hstep) _
      have happend := (s.ledger.node m).recoveries.poll_append max
      rw [hpoll] at happend
      rw [hafter]
      exact happend
    | _ => exact hsent h hstep
  | _ => exact hsent h hstep

end Step

/-- A block that has been handed out waits no more, and is queued when it is handed in again. -/
theorem Ledger.Single.requeued {s s' : Service} {n : NodeRef} {batch : List OpenRef} (h : s.ledger.Single n)
    (hkeeps : s.ledger.KeepsOpenIds s'.ledger)
    (happend : batch ++ (s'.ledger.node n).recoveries.items = (s.ledger.node n).recoveries.items) :
    (batch.map s.ledger.openId).Nodup ∧ ∀ b ∈ batch, ¬ s'.ledger.Awaits n (s.ledger.openId b) := by
  have hnodup := h.nodup
  rw [← happend, List.map_append, List.nodup_append] at hnodup
  refine ⟨hnodup.1, fun b hb => ?_⟩
  rintro ⟨a, ha, hid⟩
  have hmem : a ∈ (s.ledger.node n).recoveries.items := happend ▸ List.mem_append_right batch ha
  rw [hkeeps.openId a (h.made a hmem)] at hid
  exact hnodup.2.2 _ (List.mem_map_of_mem hb) _ (List.mem_map_of_mem ha) hid.symm

/-- In whatever order records are handed in, to a node or to its coordinator, and batches are handed out, queues are
cleared and nodes are registered again: the recoveries that wait for a node are of different blocks, and so are those of
each batch. A record is refused exactly while one of the same block waits, which leaves the queue as it is, and is
queued once that one has been handed out. -/
theorem recovery_once_per_block {clock : Int} {past : List Step} (h : ({ ledger := { clock } } : Service).Legal past)
    (hmade : ({ ledger := { clock } } : Service).Never Step.Dangles past) (n : NodeRef) :
    let s := ({ ledger := { clock } } : Service).run past
    ((s.ledger.node n).recoveries.items.map s.ledger.openId).Nodup ∧
    (n ∈ s.ledger.heldNodes → ∀ b, ∃ added s', (Request.addRecovery n b).exec s = (.ok added, s') ∧
      s.ledger.Offered n b added s'.ledger) ∧
    (∀ c uuid, (s.ledger.coordinator c).nodes.find? uuid = some n → ∀ b, ∃ added s',
      (Request.addRecoveryOn c uuid b).exec s = (.ok (.ok added), s') ∧ s.ledger.Offered n b added s'.ledger) ∧
    ∀ (step : Step) batch, step.Enabled s.ledger → step.HandsOut n s batch →
      (batch.map s.ledger.openId).Nodup ∧
      ∀ b ∈ batch, ∀ again : OpenRef, (step.after s).ledger.openId again = s.ledger.openId b →
        (n ∈ (step.after s).ledger.heldNodes →
          ((Request.addRecovery n again).exec (step.after s)).1 = .ok true) ∧
        ∀ c uuid, ((step.after s).ledger.coordinator c).nodes.find? uuid = some n →
          ((Request.addRecoveryOn c uuid again).exec (step.after s)).1 = .ok (.ok true) := by
  intro s
  have hs : Reachable s := (Reachable.start clock).run h
  have hempty : ({ clock } : Ledger).Single n := ⟨fun _ hb => (List.not_mem_nil hb).elim, List.nodup_nil⟩
  have hsingle : s.ledger.Single n := Service.single_run (Reachable.start clock) hempty h hmade
  refine ⟨hsingle.nodup, fun hn b => Request.exec_addRecovery_offered (hs.orderly.held n hn) b, ?_, ?_⟩
  · intro c uuid hfind b
    exact Request.exec_addRecoveryOn_offered hfind (hs.enrolled.made _ _ _ hfind) b
  · intro step batch hstep hout
    have hs' : Reachable (step.after s) := hs.step hstep
    obtain ⟨hnodup, hgone⟩ := hsingle.requeued (Step.keepsOpenIds_after hstep) (hout.append hs hstep)
    refine ⟨hnodup, fun b hb again hid => ?_⟩
    have hqueued : ∀ {added l}, (step.after s).ledger.Offered n again added l → added = true := by
      intro added l hoffered
      cases added with
      | true => rfl
      | false => exact (hgone b hb (hid ▸ hoffered.refused_iff.1 rfl)).elim
    constructor
    · intro hn
      obtain ⟨added, s', he, hoffered⟩ := Request.exec_addRecovery_offered (hs'.orderly.held n hn) again
      rw [he, hqueued hoffered]
    · intro c uuid hfind
      obtain ⟨added, s', he, hoffered⟩ := Request.exec_addRecoveryOn_offered hfind (hs'.enrolled.made _ _ _ hfind) again
      rw [he, hqueued hoffered]

/-- Two records of one block, the later one with a newer stamp, and another block. The later record is refused. -/
def twoRecords : List Step :=
  [.makeCoordinator {}, .makeOpenBlock { block := ⟨7, 100, 1⟩ }, .makeOpenBlock { block := ⟨7, 100, 2⟩ },
    .makeOpenBlock { block := ⟨8, 50, 1⟩ }, .register ⟨0⟩ (.ofAddress "a" "10.0.0.1" 9866) [{ id := "A" }],
    .addRecovery ⟨0⟩ ⟨0⟩, .addRecoveryOn ⟨0⟩ "a" ⟨1⟩, .addRecoveryOn ⟨0⟩ "a" ⟨2⟩]

/-- A heartbeat hands the first record and the other block out; then the later record is queued. -/
theorem recovery_once_per_block_two_records :
    let s := ({} : Service).run twoRecords
    let beat := Step.heartbeat ⟨0⟩ "a" {}
    (s.ledger.node ⟨0⟩).recoveries.items = [⟨0⟩, ⟨2⟩] ∧
    ((s.ledger.node ⟨0⟩).recoveries.items.map s.ledger.openId).Nodup ∧
    ((Request.addRecovery ⟨0⟩ ⟨1⟩).exec (beat.after s)).1 = .ok true := by
  intro s beat
  obtain ⟨hnodup, -, -, hout⟩ := @recovery_once_per_block 0 twoRecords (by decide +kernel) (by decide +kernel) ⟨0⟩
  have hsent : beat.sent ⟨0⟩ s = [.recover [⟨0⟩, ⟨2⟩]] := by rfl
  have hbeat : beat.HandsOut ⟨0⟩ s [⟨0⟩, ⟨2⟩] := by
    show .recover [⟨0⟩, ⟨2⟩] ∈ beat.sent ⟨0⟩ s
    rw [hsent]
    exact List.mem_singleton_self _
  have hrequeue := (hout beat [⟨0⟩, ⟨2⟩] trivial hbeat).2 ⟨0⟩ (by decide) ⟨1⟩ (by decide +kernel)
  exact ⟨by decide +kernel, hnodup, hrequeue.1 (by decide +kernel)⟩

end DatanodeLedger
