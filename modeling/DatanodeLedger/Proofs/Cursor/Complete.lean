import DatanodeLedger.Proofs.Cursor.Iteration
import DatanodeLedger.Proofs.Membership.Admission
import DatanodeLedger.Proofs.Membership.Arrivals
import DatanodeLedger.Proofs.Membership.Counts

/-! Iterations over all blocks of a node. While nothing changes, a walk gives out every membership on a volume of
the node once and nothing else, and the blocks of a volume in the order in which they came there, the newest
first. -/
namespace DatanodeLedger
variable {s : Service} {n : NodeRef} {v : StorageRef} {b : BlockRef} {g : Guard}

/-- The block that a step puts on the list of a volume, if it puts one there. -/
def Step.insertion (v : StorageRef) (s : Service) (step : Step) : List BlockRef :=
  ((step.arrival? s).filter (·.1 = v)).toList.map Prod.snd

theorem Step.insertion_of_arrival {step : Step} (h : step.arrival? s = some (v, b)) : step.insertion v s = [b] := by
  rw [insertion, h, Option.filter_some, if_pos (decide_eq_true rfl)]
  rfl

theorem Step.insertion_of_not_inserts {step : Step} (h : ¬ step.Inserts v s) : step.insertion v s = [] := by
  rw [insertion, Option.filter_eq_none_iff.2]
  · rfl
  · rintro ⟨u, b⟩ hb hu
    cases of_decide_eq_true hu
    exact h (inserts_iff.2 ⟨b, hb⟩)

theorem Step.reverse_insertion (step : Step) : (step.insertion v s).reverse = step.insertion v s := by
  by_cases h : step.Inserts v s
  · obtain ⟨b, hb⟩ := inserts_iff.1 h
    rw [insertion_of_arrival hb, List.reverse_singleton]
  · rw [insertion_of_not_inserts h, List.reverse_nil]

/-- The blocks that steps put on the list of a volume, the last one first. -/
def Service.insertions (v : StorageRef) (s : Service) (steps : List Step) : List BlockRef :=
  (s.along (Step.insertion v) steps).reverse

/-- The blocks are ordered by when they were last inserted, the newest first. -/
structure NewestFirst (history blocks : List BlockRef) : Prop where
  inserted : ∀ b ∈ blocks, b ∈ history
  order : blocks.Pairwise fun b c => history.idxOf b < history.idxOf c

namespace NewestFirst
variable {history blocks blocks' : List BlockRef}

theorem sublist (h : NewestFirst history blocks) (hsub : blocks'.Sublist blocks) : NewestFirst history blocks' :=
  ⟨fun b hb => h.inserted b (hsub.subset hb), h.order.sublist hsub⟩

theorem cons (h : NewestFirst history blocks) (hb : b ∉ blocks) : NewestFirst (b :: history) (b :: blocks) := by
  have hlater : ∀ c ∈ blocks, (b :: history).idxOf c = history.idxOf c + 1 := by
    intro c hc
    refine List.idxOf_cons_ne history ?_
    rintro rfl
    exact hb hc
  refine ⟨fun c hc => ?_, List.pairwise_cons.2 ⟨fun c hc => ?_, ?_⟩⟩
  · rcases List.mem_cons.1 hc with rfl | hc
    · exact List.mem_cons_self
    · exact List.mem_cons_of_mem b (h.inserted c hc)
  · rw [List.idxOf_cons_self, hlater c hc]
    exact Nat.succ_pos _
  · refine h.order.imp_of_mem fun hc hd hlt => ?_
    rw [hlater _ hc, hlater _ hd]
    exact Nat.succ_lt_succ hlt

/-- A step leaves a list in order: it takes blocks off, or puts the one that is newest now in front. -/
theorem after {step : Step} (h : NewestFirst history (s.ledger.listed v)) (hs : s.ledger.Coherent)
    (hstep : step.Enabled s.ledger) :
    NewestFirst (step.insertion v s ++ history) ((step.after s).ledger.listed v) := by
  by_cases hv : step.Inserts v s
  · obtain ⟨b, hb⟩ := Step.inserts_iff.1 hv
    obtain ⟨bs, hlisted, hsub⟩ := Step.enters_after hs hstep hb
    have hnodup := (step.coherent_after hs hstep).listed_nodup v
    rw [hlisted] at hnodup ⊢
    rw [Step.insertion_of_arrival hb]
    exact (h.sublist hsub).cons (List.nodup_cons.1 hnodup).1
  · rw [Step.insertion_of_not_inserts hv]
    exact h.sublist (hs.sublist_of_sheds (step.sheds_after hs hstep hv))

theorem run {steps : List Step} (h : NewestFirst history (s.ledger.listed v)) (hs : Reachable s)
    (hsteps : s.Legal steps) : NewestFirst (s.insertions v steps ++ history) ((s.run steps).ledger.listed v) := by
  induction steps generalizing s history with
  | nil => exact h
  | cons step steps ih =>
    have hrest := ih (h.after hs.coherent hsteps.1) (hs.step hsteps.1) hsteps.2
    rw [Service.insertions] at hrest ⊢
    rw [Service.along, List.reverse_append, step.reverse_insertion, List.append_assoc]
    exact hrest

end NewestFirst

namespace Ledger
variable {l : Ledger}

/-- The memberships are those on the volumes of a node, and the back-references to them, each of them once, and
they are counted as its blocks. -/
structure Covers (l : Ledger) (n : NodeRef) (ps : List (StorageRef × BlockRef)) : Prop where
  once : ps.Nodup
  listed : ∀ v b, (v, b) ∈ ps ↔ v ∈ (l.node n).storages.values ∧ b ∈ l.listed v
  referred : ∀ v b, (v, b) ∈ ps ↔ v ∈ (l.node n).storages.values ∧ v ∈ (l.block b).holders
  count : l.numBlocks n = .ok ps.length

theorem Coherent.covers (h : l.Coherent) (hn : n ∈ l.heldNodes) {vs : List StorageRef} (hnodup : vs.Nodup)
    (hvs : vs.Perm (l.node n).storages.values) : l.Covers n (l.memberships vs) := by
  have hlisted : ∀ v b, (v, b) ∈ l.memberships vs ↔ v ∈ (l.node n).storages.values ∧ b ∈ l.listed v := by
    intro v b
    rw [mem_memberships, hvs.mem_iff]
  refine ⟨h.memberships_nodup hnodup, hlisted, fun v b => ?_, ?_⟩
  · rw [hlisted v b]
    exact and_congr_right fun hv => h.mirror v b (isLive_of_mem hn hv)
  · rw [h.numBlocks_eq, blocksOn, ← map_snd_memberships, List.length_map]
    exact congrArg Except.ok (hvs.flatMap_right _).symm.length_eq

end Ledger

namespace Request

theorem exec_walkBlocks_of_admits (hg : s.ledger.Admits n g) : ∃ l, s.ledger.Alike l ∧
    (walkBlocks g n).exec s = (.ok (.through (s.ledger.node n).storages.values), { s with ledger := l }) ∧
    ∀ id, (walkStorage g n id).exec s =
      (.ok (.through (s.ledger.storageOf? n id).toList), { s with ledger := l }) := by
  obtain ⟨l, hcheck, halike, -⟩ := exec_check_of_admits hg
  refine ⟨l, halike, ?_, fun id => ?_⟩
  · unfold walkBlocks
    rw [exec_bind_ok hcheck]
    rw [exec_bind_ok (exec_node ..)]
    simp only [halike.volumes]
    rfl
  · unfold walkStorage
    rw [exec_bind_ok hcheck]
    rw [exec_bind_ok (exec_ledger _)]
    simp only [halike.storageOf?]
    rfl

end Request

/-- Whatever has happened to a node: in whichever order a walk takes its volumes, it gives out their lists one
after the other and then nothing any more, so that every membership is given out once, no other is, and there
are as many as are counted. A walk over one volume gives out the list of that, and one over an unknown volume
nothing. And all lists are in the order of the last insertions, the newest first. -/
theorem iteration_complete (clock : Int) {steps : List Step} (hsteps : Service.Legal { ledger := { clock } } steps)
    (hn : n ∈ (Service.run { ledger := { clock } } steps).ledger.heldNodes)
    (hg : (Service.run { ledger := { clock } } steps).ledger.Admits n g) :
    let made : Service := { ledger := { clock } }
    let s := made.run steps
    ∃ t : Service, s.ledger.Alike t.ledger ∧
      (Request.walkBlocks g n).exec s = (.ok (.through (t.ledger.node n).storages.values), t) ∧
      (∀ vs, vs.Perm (t.ledger.node n).storages.values →
        t.Yields Walk.locate vs (.through vs) (t.ledger.memberships vs) ∧
        t.ledger.Covers n (t.ledger.memberships vs)) ∧
      (∀ id, (Request.walkStorage g n id).exec s = (.ok (.through (t.ledger.storageOf? n id).toList), t) ∧
        t.Yields Walk.locate (t.ledger.storageOf? n id).toList (.through (t.ledger.storageOf? n id).toList)
          (t.ledger.memberships (t.ledger.storageOf? n id).toList)) ∧
      ∀ v, NewestFirst (made.insertions v steps) (t.ledger.listed v) := by
  intro made s
  have hs : Reachable s := (Reachable.start clock).run hsteps
  obtain ⟨l, halike, hwalk, hstorage⟩ := Request.exec_walkBlocks_of_admits hg
  have hl : l.Coherent := halike.quiet.coherent hs.coherent
  have hyields : ∀ vs, Service.Yields Walk.locate vs { s with ledger := l } (.through vs) (l.memberships vs) := by
    intro vs
    apply Walk.Gives.yields (hl.gives_through vs)
    rw [Walk.map_storage_through]
    exact List.Subset.refl vs
  refine ⟨{ s with ledger := l }, halike, ?_, fun vs hvs => ⟨hyields vs, ?_⟩, fun id => ⟨?_, hyields _⟩, fun v => ?_⟩
  · rw [halike.volumes]
    exact hwalk
  · have hnodup : (l.node n).storages.values.Nodup := halike.volumes n ▸ hs.orderly.values_nodup n
    exact hl.covers (halike.held ▸ hn) (hvs.nodup_iff.2 hnodup) hvs
  · rw [halike.storageOf?]
    exact hstorage id
  · have hstart : NewestFirst [] (made.ledger.listed v) := ⟨fun _ hb => (List.not_mem_nil hb).elim, .nil⟩
    have horder := hstart.run (Reachable.start clock) hsteps
    rw [List.append_nil] at horder
    rw [halike.listed v]
    exact horder

/-- Three volumes, the second of them empty. On the first a block has been taken off and put there again, another
has been replaced, and the third has a record that the first has as well. -/
def walkedSteps : List Step :=
  [.makeCoordinator {}, .makeBlock ⟨1, 10, 1⟩ 3, .makeBlock ⟨2, 10, 1⟩ 3, .makeBlock ⟨3, 10, 1⟩ 3,
    .makeBlock ⟨4, 10, 1⟩ 3,
    .register ⟨0⟩ (.ofAddress "n" "10.0.0.1" 9866) [{ id := "A" }, { id := "B" }, { id := "C" }],
    .addReportedBlock ⟨0⟩ "n" "A" ⟨0⟩, .addReportedBlock ⟨0⟩ "n" "A" ⟨1⟩, .addReportedBlock ⟨0⟩ "n" "A" ⟨2⟩,
    .removeBlockFrom ⟨⟨0⟩⟩ ⟨0⟩ "A" ⟨0⟩, .addBlock ⟨⟨0⟩⟩ ⟨0⟩ "C" ⟨3⟩, .addBlock ⟨⟨0⟩⟩ ⟨0⟩ "A" ⟨0⟩,
    .replaceBlock ⟨⟨0⟩⟩ ⟨0⟩ ⟨1⟩ ⟨3⟩]

theorem iteration_complete_of_empty_volume :
    let made : Service := { ledger := { clock := 0 } }
    let s := made.run walkedSteps
    let volumes : List StorageRef := [⟨0⟩, ⟨1⟩, ⟨2⟩]
    ∃ t : Service, (Request.walkBlocks ⟨⟨0⟩⟩ ⟨0⟩).exec s = (.ok (.through volumes), t) ∧
      t.Yields Walk.locate volumes (.through volumes)
        [(⟨0⟩, ⟨3⟩), (⟨0⟩, ⟨0⟩), (⟨0⟩, ⟨2⟩), (⟨2⟩, ⟨3⟩)] ∧
      t.ledger.Covers ⟨0⟩ [(⟨0⟩, ⟨3⟩), (⟨0⟩, ⟨0⟩), (⟨0⟩, ⟨2⟩), (⟨2⟩, ⟨3⟩)] ∧
      (Request.walkStorage ⟨⟨0⟩⟩ ⟨0⟩ "D").exec s = (.ok (.through []), t) ∧
      made.insertions ⟨0⟩ walkedSteps = [⟨3⟩, ⟨0⟩, ⟨2⟩, ⟨1⟩, ⟨0⟩] ∧
      NewestFirst (made.insertions ⟨0⟩ walkedSteps) (t.ledger.listed ⟨0⟩) := by
  intro made s volumes
  have hsteps : made.Legal walkedSteps := by decide +kernel
  have hn : (⟨0⟩ : NodeRef) ∈ s.ledger.heldNodes := by decide +kernel
  have hg : s.ledger.Admits ⟨0⟩ ⟨⟨0⟩⟩ := by decide +kernel
  obtain ⟨t, halike, hwalk, hall, hone, horder⟩ := iteration_complete 0 hsteps hn hg
  have hvolumes : (t.ledger.node ⟨0⟩).storages.values = volumes := by
    rw [halike.volumes]
    decide +kernel
  have hmemberships : t.ledger.memberships volumes = s.ledger.memberships volumes := by
    unfold Ledger.memberships
    rw [funext halike.listed]
  have hunknown : t.ledger.storageOf? ⟨0⟩ "D" = none := by
    rw [halike.storageOf?]
    decide +kernel
  rw [hvolumes] at hwalk hall
  obtain ⟨hyields, hcovers⟩ := hall volumes (.refl volumes)
  rw [hmemberships] at hyields hcovers
  obtain ⟨hstorage, -⟩ := hone "D"
  rw [hunknown] at hstorage
  have hlist : s.ledger.memberships volumes = [(⟨0⟩, ⟨3⟩), (⟨0⟩, ⟨0⟩), (⟨0⟩, ⟨2⟩), (⟨2⟩, ⟨3⟩)] := by
    decide +kernel
  rw [hlist] at hyields hcovers
  exact ⟨t, hwalk, hyields, hcovers, hstorage, by decide +kernel, horder ⟨0⟩⟩

end DatanodeLedger
