import DatanodeLedger.Proofs.Cursor.Iteration
import DatanodeLedger.Proofs.Membership.Counts
import DatanodeLedger.Proofs.Registry.Housed
import Mathlib.Data.List.Flatten
import Mathlib.Data.List.Perm.Subperm

/-! Iterations during which anything may happen to the lists. A slot that is given back and taken again can make
a cursor jump, even backwards; but what it gives out is always on the list, and once nothing changes any more
it comes to an end. -/
namespace DatanodeLedger

namespace Ledger
variable {l : Ledger} {n : NodeRef} {vs : List StorageRef}

/-- Some of the volumes of a node hold no more memberships than the node. -/
theorem length_memberships_le_blocksOn (hvs : vs.Nodup) (hsub : vs ⊆ (l.node n).storages.values) :
    (l.memberships vs).length ≤ (l.blocksOn n).length := by
  obtain ⟨us, hperm, hus⟩ := hvs.subperm hsub
  have hall : (l.blocksOn n).length = (l.memberships (l.node n).storages.values).length := by
    rw [blocksOn, ← map_snd_memberships, List.length_map]
  calc (l.memberships vs).length = (l.memberships us).length := (hperm.flatMap_right _).symm.length_eq
    _ ≤ (l.memberships (l.node n).storages.values).length := (hus.flatMap _).length_le
    _ = (l.blocksOn n).length := hall.symm

end Ledger

theorem Reachable.keepsVolumes_run {s : Service} (h : Reachable s) {steps : List Step} (hsteps : s.Legal steps) :
    s.ledger.KeepsVolumes (s.run steps).ledger := by
  induction steps generalizing s with
  | nil => exact refl_of Ledger.KeepsVolumes s.ledger
  | cons step steps ih =>
    exact trans_of Ledger.KeepsVolumes (step.keepsVolumes_after hsteps.1) (ih (h.step hsteps.1) hsteps.2)

/-- An iteration over some volumes that comes upon no fault. Every block is on the list of its volume when it is
given out, and nothing is given out after nothing has been. Where it stops to be interrupted, memberships that
are pairwise different are still to come, no more of them than are counted then. -/
def Service.Safe {ι : Type} (next : Next ι (StorageRef × BlockRef)) (vs : List StorageRef)
    (count : Ledger → Except Fault Nat) (s : Service) (i : ι) (moves : List Move) : Prop :=
  ∃ pulls last, s.iterate next i moves = .ok (pulls, last) ∧
    (∀ pull ∈ pulls, ∀ v b, pull.answer = some (v, b) → v ∈ vs ∧ b ∈ pull.ledger.listed v) ∧
    pulls.Pairwise (fun pull later => pull.answer = none → later.answer = none) ∧
    ∃ rest total, (s.run (Move.steps moves)).Yields next vs last rest ∧ rest.Nodup ∧
      count (s.run (Move.steps moves)).ledger = .ok total ∧ rest.length ≤ total

/-- A cursor gives out what is on the list of its volume, or nothing any more. -/
private theorem locate_cursor {l : Ledger} (h : l.Coherent) (c : Cursor) :
    ∃ answer c', c.locate l = .ok (answer, c') ∧ c'.storage = c.storage ∧
      (∀ p, answer = some p → p.1 = c.storage ∧ p.2 ∈ l.listed p.1) ∧ (answer = none → c'.position = .done) := by
  obtain ⟨bs, hbs, hgives⟩ := h.exists_gives c
  cases bs with
  | nil => exact ⟨none, _, hgives.locate_nil, rfl, fun p hp => (by cases hp), fun _ => rfl⟩
  | cons b bs =>
    obtain ⟨position, hlocate, -⟩ := hgives.locate_cons
    refine ⟨some (c.storage, b), { c with position }, hlocate, rfl, fun p hp => ?_, fun hnone => by cases hnone⟩
    cases hp
    exact ⟨rfl, hbs.subset List.mem_cons_self⟩

/-- And so does a walk, with the volumes that are left of it. -/
private theorem locate_walk {l : Ledger} (h : l.Coherent) (w : Walk) :
    ∃ answer w', w.locate l = .ok (answer, w') ∧ w'.cursors.map Cursor.storage <:+ w.cursors.map Cursor.storage ∧
      (∀ p, answer = some p → p.1 ∈ w.cursors.map Cursor.storage ∧ p.2 ∈ l.listed p.1) ∧
      (answer = none → w'.cursors = []) := by
  obtain ⟨ps, hps, hgives⟩ := h.exists_walk_gives w.cursors
  cases ps with
  | nil => exact ⟨none, _, hgives.locate_nil, List.nil_suffix, fun p hp => (by cases hp), fun _ => rfl⟩
  | cons p ps =>
    obtain ⟨v, b⟩ := p
    obtain ⟨w', hlocate, -, hsuffix⟩ := hgives.locate_cons
    refine ⟨some (v, b), w', hlocate, hsuffix, fun p hp => ?_, fun hnone => by cases hnone⟩
    cases hp
    exact Ledger.mem_memberships.1 (hps.subset List.mem_cons_self)

/-- An iteration of a cursor never leaves its volume. -/
private theorem iterate_cursor {s : Service} (h : Reachable s) {moves : List Move}
    (hmoves : s.Legal (Move.steps moves)) (c : Cursor) :
    ∃ pulls last, s.iterate Cursor.locate c moves = .ok (pulls, last) ∧ last.storage = c.storage ∧
      (∀ pull ∈ pulls, ∀ p, pull.answer = some p → p.1 = c.storage ∧ p.2 ∈ pull.ledger.listed p.1) ∧
      pulls.Pairwise (fun pull later => pull.answer = none → later.answer = none) := by
  have hnext : ∀ (l : Ledger) (c' : Cursor), l.Coherent → c'.storage = c.storage → ∃ answer c'',
      c'.locate l = .ok (answer, c'') ∧ c''.storage = c.storage ∧
        (∀ p, answer = some p → p.1 = c.storage ∧ p.2 ∈ l.listed p.1) ∧
        (answer = none → c''.position = .done) := by
    intro l c' hl hc'
    obtain ⟨answer, c'', hlocate, hstorage, hanswer, hstop⟩ := locate_cursor hl c'
    exact ⟨answer, c'', hlocate, hstorage.trans hc', fun p hp => hc' ▸ hanswer p hp, hstop⟩
  have hdone : ∀ (l : Ledger) (c' : Cursor), c'.position = .done → ∃ c'',
      c'.locate l = .ok (none, c'') ∧ c''.position = .done := by
    intro l c' hc'
    exact ⟨_, (Cursor.Gives.of_done hc').locate_nil, rfl⟩
  obtain ⟨pulls, last, hpulls, hlast, hanswers, hquiet, -⟩ :=
    Service.iterate_of_invariant hnext hdone h rfl hmoves
  exact ⟨pulls, last, hpulls, hlast, hanswers, hquiet⟩

/-- An iteration of a walk leaves volumes behind, and comes to no others. -/
private theorem iterate_walk {s : Service} (h : Reachable s) {moves : List Move}
    (hmoves : s.Legal (Move.steps moves)) (w : Walk) :
    ∃ pulls last, s.iterate Walk.locate w moves = .ok (pulls, last) ∧
      last.cursors.map Cursor.storage <:+ w.cursors.map Cursor.storage ∧
      (∀ pull ∈ pulls, ∀ p, pull.answer = some p →
        p.1 ∈ w.cursors.map Cursor.storage ∧ p.2 ∈ pull.ledger.listed p.1) ∧
      pulls.Pairwise (fun pull later => pull.answer = none → later.answer = none) := by
  have hnext : ∀ (l : Ledger) (w' : Walk), l.Coherent →
      w'.cursors.map Cursor.storage <:+ w.cursors.map Cursor.storage → ∃ answer w'',
      w'.locate l = .ok (answer, w'') ∧ w''.cursors.map Cursor.storage <:+ w.cursors.map Cursor.storage ∧
        (∀ p, answer = some p → p.1 ∈ w.cursors.map Cursor.storage ∧ p.2 ∈ l.listed p.1) ∧
        (answer = none → w''.cursors = []) := by
    intro l w' hl hw'
    obtain ⟨answer, w'', hlocate, hvolumes, hanswer, hstop⟩ := locate_walk hl w'
    refine ⟨answer, w'', hlocate, hvolumes.trans hw', fun p hp => ?_, hstop⟩
    obtain ⟨hv, hb⟩ := hanswer p hp
    exact ⟨hw'.subset hv, hb⟩
  have hdone : ∀ (l : Ledger) (w' : Walk), w'.cursors = [] → ∃ w'',
      w'.locate l = .ok (none, w'') ∧ w''.cursors = [] := by
    intro l w' hw'
    have hgives : Walk.Gives l w'.cursors [] := hw' ▸ .nil
    exact ⟨_, hgives.locate_nil, rfl⟩
  obtain ⟨pulls, last, hpulls, hlast, hanswers, hquiet, -⟩ :=
    Service.iterate_of_invariant hnext hdone h List.suffix_rfl hmoves
  exact ⟨pulls, last, hpulls, hlast, hanswers, hquiet⟩

/-- However cursors and walks are called while steps are taken, and wherever they stand at first, they give out
what is on the lists of their volumes at the moment, never come upon a fault, and once they have nothing to give
they never have again. From wherever they stand then, as long as the lists stand still they give out different
memberships and come to an end, no later than all blocks of the volume or of the node have been counted. -/
theorem iteration_safe {s : Service} (h : Reachable s) {moves : List Move}
    (hmoves : s.Legal (Move.steps moves)) :
    (∀ c : Cursor, s.Safe Cursor.locate [c.storage] (fun l => (l.storage c.storage).numBlocks) c moves) ∧
    ∀ n (w : Walk), (w.cursors.map Cursor.storage).Nodup →
      (∀ c ∈ w.cursors, c.storage ∈ (s.ledger.node n).storages.values) →
      s.Safe Walk.locate (w.cursors.map Cursor.storage) (fun l => l.numBlocks n) w moves := by
  have hl := (h.run hmoves).coherent
  refine ⟨fun c => ?_, fun n w hnodup hvolumes => ?_⟩
  · obtain ⟨pulls, last, hpulls, hlast, hanswers, hquiet⟩ := iterate_cursor h hmoves c
    obtain ⟨bs, hbs, hgives⟩ := hl.exists_gives last
    have hyields := hgives.yields
    rw [hlast] at hbs hyields
    refine ⟨pulls, last, hpulls, fun pull hpull v b hp => ?_, hquiet, _, _, hyields, ?_,
      hl.numBlocks_storage c.storage, ?_⟩
    · obtain ⟨hv, hb⟩ := hanswers pull hpull (v, b) hp
      exact ⟨List.mem_singleton.2 hv, hb⟩
    · exact ((hl.listed_nodup _).sublist hbs.sublist).map fun b b' hbb' => (Prod.mk.inj hbb').2
    · rw [List.length_map]
      exact hbs.length_le
  · obtain ⟨pulls, last, hpulls, hlast, hanswers, hquiet⟩ := iterate_walk h hmoves w
    obtain ⟨ps, hps, hgives⟩ := hl.exists_walk_gives last.cursors
    have hnodup' : (last.cursors.map Cursor.storage).Nodup := hnodup.sublist hlast.sublist
    have hvolumes' : last.cursors.map Cursor.storage ⊆
        ((s.run (Move.steps moves)).ledger.node n).storages.values := by
      intro v hv
      obtain ⟨c, hc, rfl⟩ := List.mem_map.1 (hlast.subset hv)
      exact h.keepsVolumes_run hmoves n c.storage (hvolumes c hc)
    refine ⟨pulls, last, hpulls, fun pull hpull v b hp => hanswers pull hpull (v, b) hp, hquiet, _, _,
      hgives.yields hlast.subset, (hl.memberships_nodup hnodup').sublist hps, hl.numBlocks_eq n, ?_⟩
    exact Nat.le_trans hps.length_le (Ledger.length_memberships_le_blocksOn hnodup' hvolumes')

/-- Three blocks on a volume and one on another, with a fifth that is on neither. -/
def reusingSteps : List Step :=
  [.makeCoordinator {}, .makeBlock ⟨1, 10, 1⟩ 3, .makeBlock ⟨2, 10, 1⟩ 3, .makeBlock ⟨3, 10, 1⟩ 3,
    .makeBlock ⟨4, 10, 1⟩ 3, .makeBlock ⟨5, 10, 1⟩ 3,
    .register ⟨0⟩ (.ofAddress "n" "10.0.0.1" 9866) [{ id := "A" }, { id := "B" }],
    .addReportedBlock ⟨0⟩ "n" "A" ⟨0⟩, .addReportedBlock ⟨0⟩ "n" "A" ⟨1⟩, .addReportedBlock ⟨0⟩ "n" "A" ⟨2⟩,
    .addReportedBlock ⟨0⟩ "n" "B" ⟨4⟩]

/-- The slot that comes next is given back, and a new block is put into it, in front of the list. -/
def reusingMoves : List Move :=
  [.next, .step (.removeBlock ⟨⟨0⟩⟩ ⟨0⟩ ⟨1⟩), .step (.addBlock ⟨⟨0⟩⟩ ⟨0⟩ "A" ⟨3⟩), .next, .next, .next, .next]

theorem iteration_safe_of_reused_slot :
    let s := ({} : Service).run reusingSteps
    Reachable s ∧ s.Legal (Move.steps reusingMoves) ∧
    s.Safe Cursor.locate [⟨0⟩] (fun l => (l.storage ⟨0⟩).numBlocks) { storage := ⟨0⟩ } reusingMoves ∧
    s.Safe Walk.locate [⟨0⟩, ⟨1⟩] (fun l => l.numBlocks ⟨0⟩) (.through [⟨0⟩, ⟨1⟩]) reusingMoves ∧
    (s.iterate Cursor.locate { storage := ⟨0⟩ } reusingMoves).toOption.map (·.1.map Pull.answer) =
      some [some (⟨0⟩, ⟨2⟩), some (⟨0⟩, ⟨3⟩), some (⟨0⟩, ⟨2⟩), some (⟨0⟩, ⟨0⟩), none] ∧
    (s.iterate Walk.locate (.through [⟨0⟩, ⟨1⟩]) reusingMoves).toOption.map (·.1.map Pull.answer) =
      some [some (⟨0⟩, ⟨2⟩), some (⟨0⟩, ⟨3⟩), some (⟨0⟩, ⟨2⟩), some (⟨0⟩, ⟨0⟩), some (⟨1⟩, ⟨4⟩)] := by
  intro s
  have h : Reachable s := (Reachable.start 0).run (by decide +kernel)
  have hmoves : s.Legal (Move.steps reusingMoves) := by decide +kernel
  obtain ⟨hcursor, hwalk⟩ := iteration_safe h hmoves
  exact ⟨h, hmoves, hcursor { storage := ⟨0⟩ },
    hwalk ⟨0⟩ (.through [⟨0⟩, ⟨1⟩]) (by decide) (by decide +kernel), by decide +kernel, by decide +kernel⟩

end DatanodeLedger
