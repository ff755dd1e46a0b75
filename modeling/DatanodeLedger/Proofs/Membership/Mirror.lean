import DatanodeLedger.Proofs.Membership.Thinning
import DatanodeLedger.Proofs.Run.Frame

/-! Lists and back-references agree on every service that steps lead to. Only two requests, and the
report that leads to one of them, put a block on a list; all other steps at most take blocks off. -/
namespace DatanodeLedger
open Ledger (Thins)

theorem Step.thins_after {s : Service} (step : Step) (h : step.Enabled s.ledger) (hplaces : ¬ step.Places) :
    s.ledger.Thins (step.after s).ledger :=
  step.respects_after Ledger.thins_detach (fun hp => (hplaces hp).elim) (fun n _ => Request.WorkFrame.work n) h

namespace Ledger
variable {l l' : Ledger} {n : NodeRef} {id : String} {b old new : BlockRef}

theorem Addition.coherent {answer : Except Fault Bool} (h : l.Addition n id b answer l')
    (hl : l.Coherent) : l'.Coherent := by
  cases h with
  | foreign e h => exact h.quiet.coherent hl
  | unknown ht h => exact h.quiet.coherent hl
  | present ht hs h => exact h.quiet.coherent hl
  | refused ht hs ho h => exact h.quiet.coherent hl
  | placed ht hs ho h => exact h.coherent
  | lost ht hs hne ho h => exact h.coherent
  | moved ht hs hne ho h h' => exact h'.coherent

theorem ReportedAddition.coherent {c : CoordinatorRef} {uuid : String}
    {answer : Except Fault (Except Error Bool)} (h : l.ReportedAddition c uuid id b answer l')
    (hl : l.Coherent) : l'.Coherent := by
  cases h with
  | unregistered hn => exact hl
  | unknown hn ht => exact hl
  | added hn h => exact h.coherent hl

theorem Replacement.coherent {answer : Except Fault BlockRef} (h : l.Replacement n old new answer l')
    (hl : l.Coherent) : l'.Coherent := by
  cases h with
  | foreign e h => exact h.quiet.coherent hl
  | absent hs h => exact h.quiet.coherent hl
  | refused hs h ho => exact h.coherent
  | replaced hs h ho h' => exact h'.coherent

theorem coherent_start (clock : Int) : Coherent { clock } where
  shown _ := Slab.withLists_shows 1
  made _ _ hb := (List.not_mem_nil hb).elim
  mirror _ _ _ := ⟨fun hb => (List.not_mem_nil hb).elim, fun hs => (List.not_mem_nil hs).elim⟩
  known _ _ hs := (List.not_mem_nil hs).elim
  once _ := List.nodup_nil
  owned _ _ hs := (List.not_mem_nil hs).elim

end Ledger

variable {s : Service}

theorem Step.coherent_after (step : Step) (h : s.ledger.Coherent) (hstep : step.Enabled s.ledger) :
    (step.after s).ledger.Coherent := by
  by_cases hplaces : step.Places
  · cases step with
    | addBlock g n id b => exact (Request.exec_addBlock h hstep.1 hstep.2 g id).coherent h
    | replaceBlock g n old new => exact (Request.exec_replaceBlock h hstep.2.2 g n old).coherent h
    | addReportedBlock c uuid id b => exact (Request.exec_addReportedBlock h hstep c uuid id).coherent h
    | _ => exact hplaces.elim
  · exact (step.thins_after hstep hplaces h).1

theorem Reachable.coherent (h : Reachable s) : s.ledger.Coherent :=
  h.induct Ledger.coherent_start fun _ step h hstep => step.coherent_after h hstep

/-- The names of all volumes that have been made. -/
def Ledger.storageRefs (l : Ledger) : List StorageRef := (List.range l.storages.size).map StorageRef.mk

theorem Ledger.mem_storageRefs_of_mem_listed {l : Ledger} {v : StorageRef} {b : BlockRef}
    (hb : b ∈ l.listed v) : v ∈ l.storageRefs :=
  List.mem_map.2 ⟨v.index, List.mem_range.2 (lt_size_of_mem_listed hb), rfl⟩

/-- Lists and back-references are two sides of one relation, however a service has been reached: a live
volume lists a record exactly if the record refers back to it, no record refers back twice, no list
holds two records with one id, and so a block is counted on as many volumes as list that very record. -/
theorem membership_mirror (h : Reachable s) (b : BlockRef) :
    (∀ v, (s.ledger.storage v).blockRefs = .ok (s.ledger.listed v)) ∧
    (∀ v, s.ledger.isLive v = true → (b ∈ s.ledger.listed v ↔ v ∈ (s.ledger.block b).holders)) ∧
    (s.ledger.block b).holders.Nodup ∧
    (∀ v, ((s.ledger.listed v).map fun c => (s.ledger.block c).block.id).Nodup) ∧
    (s.ledger.holders b).length = (s.ledger.storageRefs.filter fun v =>
      s.ledger.isLive v && decide (b ∈ s.ledger.listed v)).length := by
  have hl := h.coherent
  refine ⟨hl.blockRefs_eq, fun v hlive => hl.mirror v b hlive, hl.once b, hl.ids_nodup, ?_⟩
  have hrefs : s.ledger.storageRefs.Nodup :=
    List.Nodup.map (fun i j hij => congrArg StorageRef.index hij) List.nodup_range
  refine ((List.perm_ext_iff_of_nodup (hl.holders_nodup b) (hrefs.filter _)).2 fun v => ?_).length_eq
  rw [hl.mem_holders, List.mem_filter, Bool.and_eq_true, decide_eq_true_iff]
  constructor
  · rintro ⟨hlive, hb⟩
    exact ⟨Ledger.mem_storageRefs_of_mem_listed hb, hlive, hb⟩
  · exact fun hv => hv.2

/-- Two records with one id: the second is refused where the first is, placed next to it, and put in the
place of a third besides; and a replacement by the first fails halfway. -/
def twinSteps : List Step :=
  [.makeCoordinator {}, .makeBlock ⟨1, 10, 1⟩ 3, .makeBlock ⟨1, 20, 2⟩ 3, .makeBlock ⟨2, 10, 1⟩ 3,
    .register ⟨0⟩ (.ofAddress "n" "10.0.0.1" 9866) [{ id := "A" }, { id := "B" }],
    .addReportedBlock ⟨0⟩ "n" "A" ⟨0⟩, .addReportedBlock ⟨0⟩ "n" "A" ⟨1⟩,
    .addReportedBlock ⟨0⟩ "n" "B" ⟨1⟩, .addBlock ⟨⟨0⟩⟩ ⟨0⟩ "B" ⟨2⟩, .replaceBlock ⟨⟨0⟩⟩ ⟨0⟩ ⟨2⟩ ⟨0⟩,
    .removeBlock ⟨⟨0⟩⟩ ⟨0⟩ ⟨0⟩, .addBlock ⟨⟨0⟩⟩ ⟨0⟩ "A" ⟨2⟩, .replaceBlock ⟨⟨0⟩⟩ ⟨0⟩ ⟨2⟩ ⟨1⟩]

theorem membership_mirror_of_twins :
    let s := ({} : Service).run twinSteps
    Reachable s ∧
    (∀ v, (s.ledger.storage v).blockRefs = .ok (s.ledger.listed v)) ∧
    (∀ v, s.ledger.isLive v = true → (⟨1⟩ ∈ s.ledger.listed v ↔ v ∈ (s.ledger.block ⟨1⟩).holders)) ∧
    (s.ledger.block ⟨1⟩).holders.Nodup ∧
    (∀ v, ((s.ledger.listed v).map fun c => (s.ledger.block c).block.id).Nodup) ∧
    (s.ledger.holders ⟨1⟩).length = (s.ledger.storageRefs.filter fun v =>
      s.ledger.isLive v && decide (⟨1⟩ ∈ s.ledger.listed v)).length ∧
    (s.ledger.holders ⟨1⟩).length = 2 := by
  intro s
  have h : Reachable s := (Reachable.start 0).run (by decide +kernel)
  obtain ⟨hrefs, hmirror, honce, hids, hcount⟩ := membership_mirror h ⟨1⟩
  exact ⟨h, hrefs, hmirror, honce, hids, hcount, by decide +kernel⟩

end DatanodeLedger
