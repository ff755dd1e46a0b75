import DatanodeLedger.Proofs.Membership.Admission
import DatanodeLedger.Proofs.Membership.OnePerNode
import DatanodeLedger.Proofs.Run.Orderly

/-! What a guard of one lock does to nodes that are tied to another. A request looks at the lock of the node
it calls upon, but a block is taken off whichever volume with the uuid of that node has it, and that can be a
volume of someone else. -/
namespace DatanodeLedger

namespace Ledger
variable {l l' : Ledger} {n : NodeRef} {id : String} {b old new : BlockRef} {u v : StorageRef}

/-- An addition takes the block off the list of a volume that is not one of the node's if that volume is
found to hold it, and leaves the list alone otherwise. -/
theorem Addition.listed_eq {answer : Except Fault Bool} (h : l.Addition n id b answer l')
    (hv : v ∉ (l.node n).storages.values) :
    l'.listed v = if answer.isOk ∧ (l.storageOf? n id).isSome ∧ l.holderOn? b (l.node n).uuid = some v then
      (l.listed v).erase b else l.listed v := by
  have hne : ∀ t, l.storageOf? n id = some t → v ≠ t := by
    rintro t ht rfl
    exact hv (Table.mem_values_of_find? ht)
  cases h with
  | foreign e h => rw [if_neg fun hc => Bool.false_ne_true hc.1, h.listed v]
  | unknown ht h =>
    rw [h.listed v, ht, if_neg]
    exact fun hc => Bool.false_ne_true hc.2.1
  | @present t _ ht hs h =>
    rw [h.listed v, hs, if_neg]
    exact fun hc => hne t ht (Option.some.inj hc.2.2).symm
  | refused ht hs ho h =>
    rw [h.listed v, hs, if_neg]
    rintro ⟨-, -, ⟨⟩⟩
  | @placed t _ ht hs ho h =>
    rw [h.listed_of_ne v (hne t ht), hs, if_neg]
    rintro ⟨-, -, ⟨⟩⟩
  | @lost w t _ ht hs hwt ho h =>
    by_cases hvw : v = w
    · subst hvw
      rw [h.listed_self, if_pos ⟨rfl, ht ▸ rfl, hs⟩]
    · rw [h.listed_of_ne v hvw, hs, if_neg]
      exact fun hc => hvw (Option.some.inj hc.2.2).symm
  | @moved w t l₁ _ ht hs hwt ho h h' =>
    rw [h'.listed_of_ne v (hne t ht)]
    by_cases hvw : v = w
    · subst hvw
      rw [h.listed_self, if_pos ⟨rfl, ht ▸ rfl, hs⟩]
    · rw [h.listed_of_ne v hvw, hs, if_neg]
      exact fun hc => hvw (Option.some.inj hc.2.2).symm

/-- An addition to a volume that is not known changes no list. -/
theorem Addition.listed_of_unknown {answer : Except Fault Bool} (h : l.Addition n id b answer l')
    (hid : l.storageOf? n id = none) (v : StorageRef) : l'.listed v = l.listed v := by
  cases h with
  | foreign e h => exact h.listed v
  | unknown ht h => exact h.listed v
  | present ht => exact absurd (hid.symm.trans ht) nofun
  | refused ht => exact absurd (hid.symm.trans ht) nofun
  | placed ht => exact absurd (hid.symm.trans ht) nofun
  | lost ht => exact absurd (hid.symm.trans ht) nofun
  | moved ht => exact absurd (hid.symm.trans ht) nofun

theorem Removal.listed_eq {s? : Option StorageRef} {answer : Except Fault Bool}
    (h : l.Removal s? b answer l') :
    l'.listed v = if answer.isOk ∧ s? = some v then (l.listed v).erase b else l.listed v := by
  cases h with
  | foreign e h => rw [if_neg fun hc => Bool.false_ne_true hc.1, h.listed v]
  | missing hb h =>
    rw [h.listed v]
    split
    · rename_i hc
      rw [List.erase_of_not_mem (hb v hc.2)]
    · rfl
  | @taken w _ hs hb h =>
    by_cases hvw : v = w
    · subst hvw
      rw [h.listed_self, if_pos ⟨rfl, hs⟩]
    · rw [h.listed_of_ne v hvw, hs, if_neg]
      exact fun hc => hvw (Option.some.inj hc.2).symm

/-- No twin takes the place of a block that has been taken off a list. -/
theorem Rewritten.not_occupied (h : l.Detached v b l') (hl : l.Coherent) (hb : b ∈ l.listed v) :
    ¬ l'.Occupied v b := by
  have hnd := ((List.perm_cons_erase hb).map fun c => (l.block c).block.id).nodup_iff.1 (hl.ids_nodup v)
  unfold Occupied
  rw [h.listed_self, h.block b]
  simp only [h.block]
  exact (List.nodup_cons.1 hnd).1

/-- A replacement changes the list of the volume that holds the old block, and no other. A block that takes its
own place in front of a list changes nothing. -/
theorem Replacement.of_listed_ne {answer : Except Fault BlockRef} (h : l.Replacement n old new answer l')
    (hl : l.Coherent) (hne : l'.listed v ≠ l.listed v) :
    l.holderOn? old (l.node n).uuid = some v ∧ ¬ (old = new ∧ (l.listed v).head? = some old) := by
  cases h with
  | foreign e h => exact (hne (h.listed v)).elim
  | absent hs h => exact (hne (h.listed v)).elim
  | @refused w _ hs h ho =>
    by_cases hvw : v = w
    · subst hvw
      refine ⟨hs, fun hc => ?_⟩
      rw [← hc.1] at ho
      exact h.not_occupied hl (hl.of_holderOn? hs).1 ho
    · exact (hne (h.listed_of_ne v hvw)).elim
  | @replaced w l₁ _ hs h ho h' =>
    by_cases hvw : v = w
    · subst hvw
      refine ⟨hs, fun ⟨hsame, hhead⟩ => hne ?_⟩
      obtain ⟨rest, hrow⟩ := List.head?_eq_some_iff.1 hhead
      rw [h'.listed_self, h.listed_self, hrow, ← hsame, List.erase_cons_head]
    · exact (hne ((h'.listed_of_ne v hvw).trans (h.listed_of_ne v hvw))).elim

/-- A block that is taken off a list is missed on it, -/
theorem Coherent.erase_ne (h : l.Coherent) (hb : b ∈ l.listed v) : (l.listed v).erase b ≠ l.listed v := by
  intro he
  rw [← he, (h.listed_nodup v).mem_erase_iff] at hb
  exact hb.1 rfl

/-- also if another comes in front of the list, unless it is the same block that was there before. -/
theorem Coherent.cons_erase_ne (h : l.Coherent)
    (hne : ¬ (old = new ∧ (l.listed v).head? = some old)) : new :: (l.listed v).erase old ≠ l.listed v := by
  intro he
  have hnd := h.listed_nodup v
  cases hrow : l.listed v with
  | nil =>
    rw [hrow] at he
    cases he
  | cons c rest =>
    rw [hrow] at he hnd hne
    obtain ⟨rfl, hrest⟩ := List.cons.inj he
    by_cases hnew : old = new
    · exact hne ⟨hnew, by rw [hnew]; rfl⟩
    · rw [List.erase_cons_tail (by simpa using Ne.symm hnew)] at hrest
      refine (List.nodup_cons.1 hnd).1 ?_
      rw [← hrest]
      exact List.mem_cons_self

/-- The list of `v` stays as it is, as long as it holds none of these blocks or `v` has another uuid than the
node. -/
def Spares (n : NodeRef) (v : StorageRef) (bs : List BlockRef) (l l' : Ledger) : Prop :=
  l.Coherent → (∀ b ∈ bs, b ∈ l.listed v → (l.storage v).owner ≠ (l.node n).uuid) →
    l'.Coherent ∧ l'.listed v = l.listed v ∧ (l'.storage v).owner = (l.storage v).owner ∧
      (l'.node n).uuid = (l.node n).uuid

instance (v : StorageRef) (bs : List BlockRef) : IsPreorder Ledger (Spares n v bs) where
  refl _ h _ := ⟨h, rfl, rfl, rfl⟩
  trans _ _ _ h h' hl hbs := by
    obtain ⟨hl', hlisted, howner, huuid⟩ := h hl hbs
    obtain ⟨hl'', hlisted', howner', huuid'⟩ := h' hl' (by rw [hlisted, howner, huuid]; exact hbs)
    exact ⟨hl'', hlisted'.trans hlisted, howner'.trans howner, huuid'.trans huuid⟩

theorem Alike.spares {bs : List BlockRef} (h : l.Alike l') : Spares n v bs l l' := fun hl _ =>
  ⟨h.quiet.coherent hl, h.listed v, congrArg Storage.owner (h.storage v), h.uuid n⟩

theorem Removal.spares {bs : List BlockRef} {answer : Except Fault Bool}
    (h : l.Coherent → l.Removal (l.holderOn? b (l.node n).uuid) b answer l') (hb : b ∈ bs) :
    Spares n v bs l l' := by
  intro hl hbs
  cases h hl with
  | foreign e h => exact h.spares hl hbs
  | missing hb h => exact h.spares hl hbs
  | @taken w _ hw hbw h =>
    have hvw : v ≠ w := by
      rintro rfl
      exact hbs b hb hbw (hl.of_holderOn? hw).2.2
    exact ⟨h.coherent, h.listed_of_ne v hvw, h.owner v, h.uuid n⟩

end Ledger

namespace Request
open Ledger (Quiet Spares)
variable {α β : Type} {s : Service} {g : Guard} {n : NodeRef} {b : BlockRef} {v : StorageRef}

/-- What comes after and does not bear on membership leaves the lists as they are. -/
private theorem listed_bind {r : Request α} {f : α → Request β} (hf : ∀ a, Respects Quiet (f a)) (s : Service)
    (v : StorageRef) : ((r >>= f).exec s).2.ledger.listed v = (r.exec s).2.ledger.listed v := by
  rw [exec_bind]
  rcases r.exec s with ⟨e | a, s'⟩
  · rfl
  · exact (hf a s').listed v

theorem listed_removeAllBlocks (h : s.ledger.Coherent)
    (hv : ∀ u ∈ (s.ledger.node n).storages.values, ∀ b ∈ s.ledger.listed u, b ∈ s.ledger.listed v →
      (s.ledger.storage v).owner ≠ (s.ledger.node n).uuid) :
    ((removeAllBlocks g n).exec s).2.ledger.listed v = s.ledger.listed v := by
  rcases exec_removeAllBlocks h g n with ⟨-, he⟩ | ⟨l, -, halike, -, he⟩
  · rw [he]
  · rw [he]
    let bs := (s.ledger.node n).storages.values.flatMap s.ledger.listed
    have hbs : ∀ b ∈ bs, b ∈ s.ledger.listed v → (s.ledger.storage v).owner ≠ (s.ledger.node n).uuid := by
      intro b hb
      obtain ⟨u, hu, hbu⟩ := List.mem_flatMap.1 hb
      exact hv u hu b hbu
    have hfold : Respects (Spares n v bs) (bs.foldlM (fun (count : Nat) b => do
        pure (if ← removeBlock g n b then count + 1 else count)) 0) := by
      refine .foldlM (fun count b hb => .bind (fun s' => ?_) fun removed => .pure _) 0
      exact Ledger.Removal.spares (fun hl => exec_removeBlock hl g n b) hb
    exact (trans_of (Spares n v bs) halike.spares (hfold { s with ledger := l }) h hbs).2.1

private theorem listed_letGo {α : Type} (n : NodeRef) (outcome : Except Fault α × Service) (v : StorageRef) :
    (letGo n outcome).2.ledger.listed v = outcome.2.ledger.listed v := rfl

/-- As far as lists are concerned, forgetting a node is taking all its blocks off under the lock of the
coordinator. -/
theorem exec_removeNode {c : CoordinatorRef} {uuid : String}
    (hn : (s.ledger.coordinator c).nodes.find? uuid = some n) :
    ∃ s₁ : Service, s₁.ledger.nodes = s.ledger.nodes ∧ s₁.ledger.storages = s.ledger.storages ∧
      s.ledger.Quiet s₁.ledger ∧ ∀ v, ((removeNode c uuid).exec s).2.ledger.listed v =
        ((removeAllBlocks ⟨(s.ledger.coordinator c).lock⟩ n).exec s₁).2.ledger.listed v := by
  have hforget : s.ledger.Quiet (s.ledger.forget c uuid n) := Frame.forget hn
  obtain ⟨s₁, l', hnodes, halike, halike', he⟩ := exec_withLock_alike (s.ledger.coordinator c).lock (fun g => do
    let replicas ← removeAllBlocks g n
    clearQueues g n
    pure replicas) ⟨s.ledger.forget c uuid n, s.journal⟩
  refine ⟨s₁, hnodes, halike.storages, hforget.trans halike.quiet, fun v => ?_⟩
  rw [exec_removeNode_of_registered hn, listed_letGo, listed_bind]
  · unfold purge
    rw [exec_bind_ok (exec_coordinator ..), Ledger.lock_forget, he]
    refine (halike'.listed v).trans ?_
    rw [listed_bind]
    exact fun _ => .bind (respects_clearQueues (AllowsWork.calm (WorkFrame.work n)) _) fun _ => .pure _
  · refine fun replicas => .bind (respects_markDead (Frame.life c n)) fun _ => ?_
    exact .bind (idle_modifyMetrics c _) fun _ => .bind (.node n) fun _ => .bind (.record _) fun _ => .pure _

/-- Under a guard that is admitted, a replacement takes the old block off the volume that is found to hold it,
whether the new one can come there or not. -/
theorem listed_replaceBlock {old new : BlockRef} (h : s.ledger.Coherent) (hg : s.ledger.Admits n g)
    (hnew : new.index < s.ledger.blocks.size) (hv : s.ledger.holderOn? old (s.ledger.node n).uuid = some v) :
    ((replaceBlock g n old new).exec s).2.ledger.listed v = (s.ledger.listed v).erase old ∨
    ((replaceBlock g n old new).exec s).2.ledger.listed v = new :: (s.ledger.listed v).erase old := by
  obtain ⟨l, hcheck, halike, -⟩ := exec_check_of_admits hg
  obtain ⟨hold, hlive, -⟩ := h.of_holderOn? hv
  obtain ⟨l₁, hrew, hrest⟩ := exec_exchange (s := { s with ledger := l }) (halike.quiet.coherent h)
    (halike.listed v ▸ hold) ((halike.live v).trans hlive) (halike.blocks ▸ hnew)
    (.replacedNotOnStorage (l.block old).block.shown (l.storage v).id)
    (.replacementOnStorage (l.block new).block.shown (l.storage v).id)
  unfold replaceBlock
  rw [exec_bind_ok hcheck]
  simp only
  rw [exec_bind_ok (exec_ledger _)]
  simp only [halike.holderOn?, halike.uuid, hv]
  rcases hrest with ⟨-, he⟩ | ⟨l', -, hrew', he⟩
  · rw [he]
    exact .inl (hrew.listed_self.trans (congrArg (List.erase · old) (halike.listed v)))
  · rw [he]
    refine .inr (hrew'.listed_self.trans ?_)
    rw [hrew.listed_self]
    exact congrArg (fun row => new :: List.erase row old) (halike.listed v)

/-- As far as lists are concerned, taking in a reported block is adding it under the lock of the coordinator. -/
theorem exec_addReportedBlock_listed {c : CoordinatorRef} {uuid : String} (h : s.ledger.Coherent)
    (hb : b.index < s.ledger.blocks.size) (hn : (s.ledger.coordinator c).nodes.find? uuid = some n) (id : String) :
    ∃ s₁ : Service, s₁.ledger.nodes = s.ledger.nodes ∧ s.ledger.Alike s₁.ledger ∧
      ∀ v, ((addReportedBlock c uuid id b).exec s).2.ledger.listed v =
        ((addBlock ⟨(s.ledger.coordinator c).lock⟩ n id b).exec s₁).2.ledger.listed v := by
  have hheld := Ledger.mem_heldNodes_of_find? hn
  cases ht : s.ledger.storageOf? n id with
  | none =>
    refine ⟨s, rfl, .refl _, fun v => ?_⟩
    have hadd := exec_addBlock h hheld hb ⟨(s.ledger.coordinator c).lock⟩ id
    rw [exec_addReportedBlock_of_unknown hn ht]
    exact (hadd.listed_of_unknown ht v).symm
  | some t =>
    obtain ⟨s₁, l', hnodes, halike, halike', he⟩ :=
      exec_withLock_alike (s.ledger.coordinator c).lock (fun g => addBlock g n id b) s
    refine ⟨s₁, hnodes, halike, fun v => ?_⟩
    rw [exec_addReportedBlock_of_some hn ht]
    rw [listed_bind (fun _ => .pure _), he]
    exact halike'.listed v

end Request

namespace Step

/-- The guard under which a step changes lists, and the node that it calls upon. What a coordinator does, it
does under its own lock. -/
def call? (l : Ledger) : Step → Option (Guard × NodeRef)
  | addBlock g n _ _ | removeBlock g n _ | removeBlockFrom g n _ _ | replaceBlock g n _ _
  | removeAllBlocks g n => some (g, n)
  | addReportedBlock c uuid _ _ | removeNode c uuid =>
    ((l.coordinator c).nodes.find? uuid).map fun n => (⟨(l.coordinator c).lock⟩, n)
  | _ => none

/-- The steps that take all blocks off a node. -/
def Empties : Step → Prop
  | removeAllBlocks .. | removeNode .. => True
  | _ => False

/-- A step that calls upon the node comes upon a volume that is found by the uuid of the node. -/
def Meets (l : Ledger) (n : NodeRef) (v : StorageRef) : Step → Prop
  | addBlock _ _ id b | addReportedBlock _ _ id b =>
    (l.storageOf? n id).isSome ∧ l.holderOn? b (l.node n).uuid = some v
  | removeBlock _ _ b => l.holderOn? b (l.node n).uuid = some v
  | replaceBlock _ _ old new =>
    l.holderOn? old (l.node n).uuid = some v ∧ ¬ (old = new ∧ (l.listed v).head? = some old)
  | removeAllBlocks .. | removeNode .. =>
    (l.storage v).owner = (l.node n).uuid ∧
      ∃ u ∈ (l.node n).storages.values, ∃ b ∈ l.listed u, b ∈ l.listed v
  | _ => False

variable {s : Service} {step : Step} {g : Guard} {n : NodeRef} {v : StorageRef}

theorem Meets.owner (h : step.Meets s.ledger n v) (hl : s.ledger.Coherent) :
    (s.ledger.storage v).owner = (s.ledger.node n).uuid := by
  cases step with
  | addBlock g n' id b => exact (hl.of_holderOn? h.2).2.2
  | addReportedBlock c uuid id b => exact (hl.of_holderOn? h.2).2.2
  | removeBlock g n' b => exact (hl.of_holderOn? h).2.2
  | replaceBlock g n' old new => exact (hl.of_holderOn? h.1).2.2
  | removeAllBlocks g n' => exact h.1
  | removeNode c uuid => exact h.1
  | _ => exact h.elim

private theorem found {c : CoordinatorRef} {uuid : String} (hcall : ((s.ledger.coordinator c).nodes.find? uuid).map
    (fun n => ((⟨(s.ledger.coordinator c).lock⟩ : Guard), n)) = some (g, n)) :
    (s.ledger.coordinator c).nodes.find? uuid = some n ∧ g = ⟨(s.ledger.coordinator c).lock⟩ := by
  obtain ⟨n', hn, he⟩ := Option.map_eq_some_iff.1 hcall
  cases he
  exact ⟨hn, rfl⟩

/-- The node that is called upon is held. -/
theorem mem_heldNodes_of_call? (hstep : step.Enabled s.ledger) (hcall : step.call? s.ledger = some (g, n)) :
    n ∈ s.ledger.heldNodes := by
  cases step with
  | addBlock g' n' id b => cases hcall; exact hstep.1
  | removeBlock g' n' b => cases hcall; exact hstep.1
  | removeBlockFrom g' n' id b => cases hcall; exact hstep.1
  | replaceBlock g' n' old new => cases hcall; exact hstep.1
  | removeAllBlocks g' n' => cases hcall; exact hstep
  | addReportedBlock c uuid id b => exact Ledger.mem_heldNodes_of_find? (found hcall).1
  | removeNode c uuid => exact Ledger.mem_heldNodes_of_find? (found hcall).1
  | _ => cases hcall

/-- A guard that is not admitted changes no list. -/
theorem listed_of_not_admits (hl : s.ledger.Coherent) (hstep : step.Enabled s.ledger)
    (hcall : step.call? s.ledger = some (g, n)) (hg : ¬ s.ledger.Admits n g) (v : StorageRef) :
    (step.after s).ledger.listed v = s.ledger.listed v := by
  have hsame : ∀ {α : Type} {s : Service}, ¬ s.ledger.Admits n g → ∀ rest : PUnit → Request α,
      ((Request.check n g >>= rest).exec s).2.ledger.listed v = s.ledger.listed v := by
    intro α s hg rest
    rw [Request.exec_bind_error (Request.exec_check_of_not_admits hg)]
  cases step with
  | addBlock g' n' id b => cases hcall; exact hsame hg _
  | removeBlock g' n' b => cases hcall; exact hsame hg _
  | removeBlockFrom g' n' id b => cases hcall; exact hsame hg _
  | replaceBlock g' n' old new => cases hcall; exact hsame hg _
  | removeAllBlocks g' n' =>
    cases hcall
    rcases Request.exec_removeAllBlocks hl g n with ⟨-, he⟩ | ⟨-, hg', -⟩
    · exact congrArg (fun p => p.2.ledger.listed v) he
    · exact (hg hg').elim
  | addReportedBlock c uuid id b =>
    obtain ⟨hn, rfl⟩ := found hcall
    obtain ⟨s₁, hnodes, halike, hlisted⟩ := Request.exec_addReportedBlock_listed hl hstep hn id
    have hg' : ¬ s₁.ledger.Admits n ⟨(s.ledger.coordinator c).lock⟩ :=
      fun hg' => hg ((Ledger.admits_congr hnodes).1 hg')
    exact (hlisted v).trans ((hsame hg' _).trans (halike.listed v))
  | removeNode c uuid =>
    obtain ⟨hn, rfl⟩ := found hcall
    obtain ⟨s₁, hnodes, -, hquiet, hlisted⟩ := Request.exec_removeNode hn
    refine (hlisted v).trans ?_
    rcases Request.exec_removeAllBlocks (hquiet.coherent hl) ⟨(s.ledger.coordinator c).lock⟩ n with
      ⟨-, he⟩ | ⟨-, hg', -⟩
    · rw [he]
      exact hquiet.listed v
    · exact (hg ((Ledger.admits_congr hnodes).1 hg')).elim
  | _ => cases hcall

/-- The list of a volume that is not one of the node's changes only if the step comes upon it. -/
theorem meets_of_listed_ne (hl : s.ledger.Coherent) (hstep : step.Enabled s.ledger)
    (hcall : step.call? s.ledger = some (g, n)) (hv : v ∉ (s.ledger.node n).storages.values)
    (hne : (step.after s).ledger.listed v ≠ s.ledger.listed v) : step.Meets s.ledger n v := by
  have hn := mem_heldNodes_of_call? hstep hcall
  cases step with
  | addBlock g' n' id b =>
    cases hcall
    by_contra hmeets
    exact hne (((Request.exec_addBlock hl hn hstep.2 g id).listed_eq hv).trans (if_neg fun hc => hmeets hc.2))
  | removeBlock g' n' b =>
    cases hcall
    by_contra hmeets
    exact hne ((Request.exec_removeBlock hl g n b).listed_eq.trans (if_neg fun hc => hmeets hc.2))
  | removeBlockFrom g' n' id b =>
    cases hcall
    refine (hne ((Request.exec_removeBlockFrom hl g n id b).listed_eq.trans (if_neg fun hc => hv ?_))).elim
    exact Table.mem_values_of_find? hc.2
  | replaceBlock g' n' old new =>
    cases hcall
    exact (Request.exec_replaceBlock hl hstep.2.2 g n old).of_listed_ne hl hne
  | removeAllBlocks g' n' =>
    cases hcall
    by_contra hmeets
    refine hne (Request.listed_removeAllBlocks hl fun u hu b hbu hbv howner => hmeets ⟨howner, u, hu, b, hbu, hbv⟩)
  | addReportedBlock c uuid id b =>
    obtain ⟨hn', rfl⟩ := found hcall
    obtain ⟨s₁, hnodes, halike, hlisted⟩ := Request.exec_addReportedBlock_listed hl hstep hn' id
    have hb₁ : b.index < s₁.ledger.blocks.size := halike.blocks.symm ▸ hstep
    have hadd := Request.exec_addBlock (halike.quiet.coherent hl) (halike.held.symm ▸ hn) hb₁
      ⟨(s.ledger.coordinator c).lock⟩ id
    by_contra hmeets
    refine hne ((hlisted v).trans ((hadd.listed_eq ?_).trans ((if_neg fun hc => hmeets ?_).trans (halike.listed v))))
    · rw [halike.volumes]
      exact hv
    · rw [halike.storageOf?, halike.holderOn?, halike.uuid] at hc
      exact hc.2
  | removeNode c uuid =>
    obtain ⟨hn', rfl⟩ := found hcall
    obtain ⟨s₁, hnodes, hstorages, hquiet, hlisted⟩ := Request.exec_removeNode hn'
    by_contra hmeets
    refine hne ((hlisted v).trans ((Request.listed_removeAllBlocks (hquiet.coherent hl) ?_).trans (hquiet.listed v)))
    intro u hu b hbu hbv howner
    unfold Ledger.node at hu howner
    unfold Ledger.storage at howner
    rw [hnodes] at hu howner
    rw [hquiet.listed] at hbu hbv
    rw [hstorages] at howner
    exact hmeets ⟨howner, u, hu, b, hbu, hbv⟩
  | _ => cases hcall

/-- Under a guard that is admitted, a step that does not empty the node changes every such list that it comes
upon. -/
theorem listed_ne_of_meets (hl : s.ledger.Coherent) (hstep : step.Enabled s.ledger)
    (hcall : step.call? s.ledger = some (g, n)) (hg : s.ledger.Admits n g) (hempties : ¬ step.Empties)
    (hv : v ∉ (s.ledger.node n).storages.values) (hmeets : step.Meets s.ledger n v) :
    (step.after s).ledger.listed v ≠ s.ledger.listed v := by
  have hn := mem_heldNodes_of_call? hstep hcall
  cases step with
  | addBlock g' n' id b =>
    cases hcall
    obtain ⟨added, hadded⟩ := Request.exec_addBlock_of_admits hl hn hstep.2 hg id
    have hlisted := (Request.exec_addBlock hl hn hstep.2 g id).listed_eq hv
    rw [hadded, if_pos ⟨rfl, hmeets⟩] at hlisted
    exact hlisted.trans_ne (hl.erase_ne (hl.of_holderOn? hmeets.2).1)
  | removeBlock g' n' b =>
    cases hcall
    obtain ⟨removed, hremoved⟩ := Request.exec_removeBlock_of_admits hl hg b
    have hlisted := (Request.exec_removeBlock hl g n b).listed_eq (v := v)
    rw [hremoved, if_pos ⟨rfl, hmeets⟩] at hlisted
    exact hlisted.trans_ne (hl.erase_ne (hl.of_holderOn? hmeets).1)
  | replaceBlock g' n' old new =>
    cases hcall
    rcases Request.listed_replaceBlock hl hg hstep.2.2 hmeets.1 with hlisted | hlisted
    · exact hlisted.trans_ne (hl.erase_ne (hl.of_holderOn? hmeets.1).1)
    · exact hlisted.trans_ne (hl.cons_erase_ne hmeets.2)
  | removeAllBlocks g' n' => exact (hempties trivial).elim
  | addReportedBlock c uuid id b =>
    obtain ⟨hn', rfl⟩ := found hcall
    obtain ⟨s₁, hnodes, halike, hlisted⟩ := Request.exec_addReportedBlock_listed hl hstep hn' id
    have hl₁ := halike.quiet.coherent hl
    have hn₁ : n ∈ s₁.ledger.heldNodes := halike.held.symm ▸ hn
    have hb₁ : b.index < s₁.ledger.blocks.size := halike.blocks.symm ▸ hstep
    obtain ⟨added, hadded⟩ :=
      Request.exec_addBlock_of_admits hl₁ hn₁ hb₁ ((Ledger.admits_congr hnodes).2 hg) id
    have hafter := (Request.exec_addBlock hl₁ hn₁ hb₁ ⟨(s.ledger.coordinator c).lock⟩ id).listed_eq (v := v)
      (halike.volumes n ▸ hv)
    rw [halike.storageOf?, halike.holderOn?, halike.uuid, halike.listed, hadded, if_pos ⟨rfl, hmeets⟩] at hafter
    exact ((hlisted v).trans hafter).trans_ne (hl.erase_ne (hl.of_holderOn? hmeets.2).1)
  | removeNode c uuid => exact (hempties trivial).elim
  | _ => exact hmeets.elim

end Step

/-- A step under a guard of one lock changes the list of a volume that belongs to a node tied to another lock
only if it calls upon a second node with the same uuid, which admits the guard, and is about a block that is on
that list. Unless it empties its node it changes every such list it comes upon, and if it does empty its node
it changes none of them as long as no record is on two volumes with one uuid. -/
theorem namespace_isolation {s : Service} (h : Reachable s) {step : Step} (hstep : step.Enabled s.ledger)
    {g : Guard} {n m : NodeRef} {r : LockRef} {v : StorageRef} (hcall : step.call? s.ledger = some (g, n))
    (hm : m ∈ s.ledger.heldNodes) (hlock : (s.ledger.node m).lock = some r) (hr : r ≠ g.lock)
    (hv : v ∈ (s.ledger.node m).storages.values) :
    ((step.after s).ledger.listed v ≠ s.ledger.listed v →
      s.ledger.Admits n g ∧ n ≠ m ∧ (s.ledger.node n).uuid = (s.ledger.node m).uuid ∧ step.Meets s.ledger n v) ∧
    (s.ledger.Admits n g → ¬ step.Empties → step.Meets s.ledger n v →
      (step.after s).ledger.listed v ≠ s.ledger.listed v) ∧
    (step.Empties → s.ledger.OnePerNode → (step.after s).ledger.listed v = s.ledger.listed v) := by
  have hl := h.coherent
  -- whoever admits the guard is another node, and no volume is kept by two of them
  have hother : s.ledger.Admits n g → n ≠ m := by
    rintro hg rfl
    exact hr (hg r hlock)
  have hforeign : s.ledger.Admits n g → v ∉ (s.ledger.node n).storages.values :=
    fun hg hvn => hother hg (h.orderly.apart n m v hvn hv)
  have hchanged : (step.after s).ledger.listed v ≠ s.ledger.listed v →
      s.ledger.Admits n g ∧ step.Meets s.ledger n v := by
    intro hne
    by_cases hg : s.ledger.Admits n g
    · exact ⟨hg, step.meets_of_listed_ne hl hstep hcall (hforeign hg) hne⟩
    · exact (hne (step.listed_of_not_admits hl hstep hcall hg v)).elim
  refine ⟨fun hne => ?_, fun hg hempties hmeets => ?_, fun hempties hone => ?_⟩
  · obtain ⟨hg, hmeets⟩ := hchanged hne
    have huuid := (hmeets.owner hl).symm.trans (hl.owned m v hv).2
    exact ⟨hg, hother hg, huuid, hmeets⟩
  · exact step.listed_ne_of_meets hl hstep hcall hg hempties (hforeign hg) hmeets
  · by_contra hne
    obtain ⟨hg, hmeets⟩ := hchanged hne
    have hn := step.mem_heldNodes_of_call? hstep hcall
    have hshared : ∃ u ∈ (s.ledger.node n).storages.values, ∃ b ∈ s.ledger.listed u, b ∈ s.ledger.listed v := by
      cases step with
      | removeAllBlocks g' n' => exact hmeets.2
      | removeNode c uuid => exact hmeets.2
      | _ => exact hempties.elim
    obtain ⟨u, hu, b, hbu, hbv⟩ := hshared
    have howner := (hl.owned n u hu).2.trans (hmeets.owner hl).symm
    have huv := hone b u v (Ledger.isLive_of_mem hn hu) (Ledger.isLive_of_mem hm hv) howner hbu hbv
    exact hforeign hg (huv ▸ hu)

/-- Two coordinators that know a node by one uuid, and a block that is on a volume of the second. -/
def sharedUuidSteps : List Step :=
  [.makeCoordinator {}, .makeCoordinator {}, .makeBlock ⟨1, 10, 1⟩ 3,
    .register ⟨0⟩ (.ofAddress "n" "10.0.0.1" 9866) [{ id := "A" }],
    .register ⟨1⟩ (.ofAddress "n" "10.0.0.1" 9866) [{ id := "B" }],
    .addBlock ⟨⟨1⟩⟩ ⟨1⟩ "B" ⟨0⟩]

/-- A removal from the volume that is named leaves the other node alone, and a removal from the node does
not. -/
theorem namespace_isolation_shared_uuid :
    let s := ({} : Service).run sharedUuidSteps
    Reachable s ∧ ⟨1⟩ ∈ s.ledger.heldNodes ∧ (s.ledger.node ⟨1⟩).lock = some ⟨1⟩ ∧
    ((Step.removeBlockFrom ⟨⟨0⟩⟩ ⟨0⟩ "A" ⟨0⟩).after s).ledger.listed ⟨1⟩ = s.ledger.listed ⟨1⟩ ∧
    ((Step.removeBlock ⟨⟨0⟩⟩ ⟨0⟩ ⟨0⟩).after s).ledger.listed ⟨1⟩ ≠ s.ledger.listed ⟨1⟩ := by
  intro s
  have h : Reachable s := (Reachable.start 0).run (by decide +kernel)
  have hm : (⟨1⟩ : NodeRef) ∈ s.ledger.heldNodes := by decide +kernel
  have hlock : (s.ledger.node ⟨1⟩).lock = some ⟨1⟩ := by decide +kernel
  have hr : (⟨1⟩ : LockRef) ≠ (⟨⟨0⟩⟩ : Guard).lock := by decide
  have hv : (⟨1⟩ : StorageRef) ∈ (s.ledger.node ⟨1⟩).storages.values := by decide +kernel
  have hstep : (Step.removeBlock ⟨⟨0⟩⟩ ⟨0⟩ ⟨0⟩).Enabled s.ledger := by decide +kernel
  have hstep' : (Step.removeBlockFrom ⟨⟨0⟩⟩ ⟨0⟩ "A" ⟨0⟩).Enabled s.ledger := by decide +kernel
  have hremove := namespace_isolation h hstep rfl hm hlock hr hv
  have hfrom := namespace_isolation h hstep' rfl hm hlock hr hv
  have hg : s.ledger.Admits ⟨0⟩ ⟨⟨0⟩⟩ := by decide +kernel
  have hmeets : s.ledger.holderOn? ⟨0⟩ (s.ledger.node ⟨0⟩).uuid = some ⟨1⟩ := by decide +kernel
  refine ⟨h, hm, hlock, ?_, hremove.2.1 hg id hmeets⟩
  by_contra hne
  exact (hfrom.1 hne).2.2.2

/-- The first coordinator's lock is held, and the block is gone from a node that is tied to the second's. -/
theorem foreign_volume_loses_block :
    let s := ({} : Service).run sharedUuidSteps
    let removed := (Request.removeBlock ⟨⟨0⟩⟩ ⟨0⟩ ⟨0⟩).exec s
    Reachable s ∧ (s.ledger.node ⟨1⟩).lock = some ⟨1⟩ ∧ ⟨1⟩ ∈ (s.ledger.node ⟨1⟩).storages.values ∧
    removed.1.toOption = some true ∧ s.ledger.listed ⟨1⟩ = [⟨0⟩] ∧ removed.2.ledger.listed ⟨1⟩ = [] := by
  intro s removed
  refine ⟨(Reachable.start 0).run (by decide +kernel), ?_⟩
  decide +kernel

end DatanodeLedger
