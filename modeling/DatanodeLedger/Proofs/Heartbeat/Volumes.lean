import DatanodeLedger.Proofs.Heartbeat.Figures
import Mathlib.Data.List.Dedup

/-! The totals of a node beside the records of its volumes. A record has the last report on its volume, and the totals
have every report, so what sets them apart is exactly the reports that a later one on the same volume supersedes. -/
namespace DatanodeLedger

namespace StorageReport

/-- The last report on every volume. -/
def latest : List StorageReport → List StorageReport
  | [] => []
  | r :: reports => if ∃ r' ∈ reports, r'.storage.id = r.storage.id then latest reports else r :: latest reports

/-- The reports after which there is another one on the same volume. -/
def superseded : List StorageReport → List StorageReport
  | [] => []
  | r :: reports =>
    if ∃ r' ∈ reports, r'.storage.id = r.storage.id then r :: superseded reports else superseded reports

theorem latest_spec {reports : List StorageReport} {r : StorageReport} (h : r ∈ latest reports) :
    ∃ before later, reports = before ++ r :: later ∧ ∀ r' ∈ later, r'.storage.id ≠ r.storage.id := by
  induction reports with
  | nil => exact absurd h List.not_mem_nil
  | cons r₀ reports ih =>
    rw [latest] at h
    split at h
    · obtain ⟨before, later, hsplit, hlater⟩ := ih h
      exact ⟨r₀ :: before, later, congrArg (r₀ :: ·) hsplit, hlater⟩
    · rename_i hnone
      rcases List.mem_cons.1 h with rfl | hrest
      · exact ⟨[], reports, rfl, fun r' hr' hid => hnone ⟨r', hr', hid⟩⟩
      · obtain ⟨before, later, hsplit, hlater⟩ := ih hrest
        exact ⟨r₀ :: before, later, congrArg (r₀ :: ·) hsplit, hlater⟩

theorem superseded_spec {reports : List StorageReport} {r : StorageReport} (h : r ∈ superseded reports) :
    ∃ before later, reports = before ++ r :: later ∧ ∃ r' ∈ later, r'.storage.id = r.storage.id := by
  induction reports with
  | nil => exact absurd h List.not_mem_nil
  | cons r₀ reports ih =>
    rw [superseded] at h
    split at h
    · rename_i hsome
      rcases List.mem_cons.1 h with rfl | hrest
      · exact ⟨[], reports, rfl, hsome⟩
      · obtain ⟨before, later, hsplit, hlater⟩ := ih hrest
        exact ⟨r₀ :: before, later, congrArg (r₀ :: ·) hsplit, hlater⟩
    · obtain ⟨before, later, hsplit, hlater⟩ := ih h
      exact ⟨r₀ :: before, later, congrArg (r₀ :: ·) hsplit, hlater⟩

end StorageReport

/-- Every report is either the last one on its volume or superseded. -/
theorem Figure.sum_filter_eq (f : Figure) (p : StorageReport → Bool) (reports : List StorageReport) :
    f.sum (reports.filter p) = f.sum ((StorageReport.latest reports).filter p) +
      f.sum ((StorageReport.superseded reports).filter p) := by
  induction reports with
  | nil => rfl
  | cons r reports ih =>
    rw [StorageReport.latest, StorageReport.superseded]
    split <;> rw [List.filter_cons, List.filter_cons] <;> split
    · rw [f.sum_cons, f.sum_cons, ih, Nat.add_left_comm]
    · exact ih
    · rw [f.sum_cons, f.sum_cons, ih, Nat.add_assoc]
    · exact ih

namespace Ledger
variable {l l' : Ledger} {n : NodeRef} {h : Heartbeat} {r : StorageReport} {v : StorageRef}

/-- The volumes of a node that reports are about, one for every report. -/
def about (l : Ledger) (n : NodeRef) (reports : List StorageReport) : List StorageRef :=
  reports.filterMap fun r => l.storageOf? n r.storage.id

/-- The sum of what is recorded on the volumes that reports are about, each taken once. -/
def recordedSum (l l' : Ledger) (n : NodeRef) (reports : List StorageReport) (f : Figure) : Nat :=
  ((l.about n reports).dedup.map fun v => (f.recorded (l'.storage v).usage).toNat).sum

/-- The sum over the reports of known volumes that are superseded. -/
def supersededSum (l : Ledger) (n : NodeRef) (reports : List StorageReport) (f : Figure) : Nat :=
  f.sum ((StorageReport.superseded reports).filter fun r => (l.storageOf? n r.storage.id).isSome)

theorem about_cons_of_none (hr : l.storageOf? n r.storage.id = none) (reports : List StorageReport) :
    l.about n (r :: reports) = l.about n reports :=
  List.filterMap_cons_none hr

theorem about_cons_of_some (hr : l.storageOf? n r.storage.id = some v) (reports : List StorageReport) :
    l.about n (r :: reports) = v :: l.about n reports :=
  List.filterMap_cons_some hr

theorem mem_about {reports : List StorageReport} :
    v ∈ l.about n reports ↔ ∃ r ∈ reports, l.storageOf? n r.storage.id = some v :=
  List.mem_filterMap

/-- The last reports name every volume once. -/
theorem Orderly.dedup_about (ho : l.Orderly) (n : NodeRef) (reports : List StorageReport) :
    (l.about n reports).dedup = l.about n (StorageReport.latest reports) := by
  induction reports with
  | nil => rfl
  | cons r reports ih =>
    rw [StorageReport.latest]
    cases hv : l.storageOf? n r.storage.id with
    | none =>
      rw [about_cons_of_none hv, ih]
      split
      · rfl
      · rw [about_cons_of_none hv]
    | some v =>
      rw [about_cons_of_some hv]
      split
      · rename_i hlater
        obtain ⟨r', hr', hid⟩ := hlater
        have hmem : v ∈ l.about n reports := mem_about.2 ⟨r', hr', hid ▸ hv⟩
        rw [List.dedup_cons_of_mem hmem, ih]
      · rename_i hlast
        have hmem : v ∉ l.about n reports := by
          intro hmem
          obtain ⟨r', hr', hv'⟩ := mem_about.1 hmem
          exact hlast ⟨r', hr', ho.storageOf?_inj hv' hv⟩
        rw [List.dedup_cons_of_notMem hmem, ih, about_cons_of_some hv]

/-- Where a figure is recorded as it was reported, the records of the known volumes sum up to the reports on them. -/
theorem sum_recorded_eq {f : Figure} {reports : List StorageReport}
    (hrecorded : ∀ r ∈ reports, ∀ v, l.storageOf? n r.storage.id = some v →
      f.recorded (l'.storage v).usage = f.reported r) :
    ((l.about n reports).map fun v => (f.recorded (l'.storage v).usage).toNat).sum =
      f.sum (reports.filter fun r => (l.storageOf? n r.storage.id).isSome) := by
  induction reports with
  | nil => rfl
  | cons r reports ih =>
    have hrest := ih fun r' hr' => hrecorded r' (List.mem_cons_of_mem r hr')
    rw [List.filter_cons]
    cases hv : l.storageOf? n r.storage.id with
    | none =>
      rw [about_cons_of_none hv]
      exact hrest
    | some v =>
      rw [about_cons_of_some hv, List.map_cons, List.sum_cons, hrecorded r List.mem_cons_self v hv, hrest]
      exact (f.sum_cons r _).symm

theorem Heard.recordedSum_eq (ho : l.Orderly) (hl : l.Heard n h l') (f : Figure) :
    l.recordedSum l' n h.reports f =
      f.sum ((StorageReport.latest h.reports).filter fun r => (l.storageOf? n r.storage.id).isSome) := by
  unfold recordedSum
  rw [ho.dedup_about]
  apply sum_recorded_eq
  intro r hr v hv
  obtain ⟨before, later, hsplit, hlater⟩ := StorageReport.latest_spec hr
  rw [hl.named before r later v hsplit hlater hv]
  cases f <;> rfl

/-- The totals are the sum of the records and of what is superseded, as far as a word can hold it. -/
theorem Heard.total_eq_recorded (ho : l.Orderly) (hl : l.Heard n h l') (f : Figure) :
    (f.total (l'.node n).stats).toNat =
      min (UInt64.size - 1) (l.recordedSum l' n h.reports f + l.supersededSum n h.reports f) := by
  rw [hl.totals, f.sum_filter_eq, hl.recordedSum_eq ho]
  rfl

/-- Nothing is superseded where every known volume is named once. -/
theorem supersededSum_eq_zero {reports : List StorageReport} (hnodup : (l.about n reports).Nodup) (f : Figure) :
    l.supersededSum n reports f = 0 := by
  have hnone : (StorageReport.superseded reports).filter (fun r => (l.storageOf? n r.storage.id).isSome) = [] := by
    apply List.filter_eq_nil_iff.2
    intro r hr hknown
    obtain ⟨v, hv⟩ := Option.isSome_iff_exists.1 hknown
    obtain ⟨before, later, rfl, r', hr', hid⟩ := StorageReport.superseded_spec hr
    have hv' : l.storageOf? n r'.storage.id = some v := hid ▸ hv
    have hsplit : l.about n (before ++ r :: later) = l.about n before ++ v :: l.about n later := by
      rw [← about_cons_of_some hv]
      exact List.filterMap_append
    rw [hsplit] at hnodup
    have hlast : v ∉ l.about n later := (List.nodup_cons.1 (List.nodup_append.1 hnodup).2.1).1
    exact hlast (mem_about.2 ⟨r', hr', hv'⟩)
  unfold supersededSum
  rw [hnone]
  rfl

end Ledger

/-- After a heartbeat, a total is the sum of what is recorded on the volumes that were named, each taken once, and of
the reports that were superseded, as far as a word can hold it. So it agrees with the volumes exactly if nothing that
counts was superseded or the volumes alone fill the word, and it does so wherever no volume was named twice. -/
theorem totals_against_volumes {s : Service} (hs : Reachable s) {n : NodeRef} (hn : n.index < s.ledger.nodes.size)
    (h : Heartbeat) :
    ∃ unknown l journal, (Request.updateHeartbeat n h).exec s = (.ok unknown, ⟨l, journal⟩) ∧
      ∀ f : Figure,
        let recorded := s.ledger.recordedSum l n h.reports f
        let superseded := s.ledger.supersededSum n h.reports f
        (f.total (l.node n).stats).toNat = min (UInt64.size - 1) (recorded + superseded) ∧
        ((f.total (l.node n).stats).toNat = min (UInt64.size - 1) recorded ↔
          superseded = 0 ∨ UInt64.size - 1 ≤ recorded) ∧
        ((s.ledger.about n h.reports).Nodup →
          (f.total (l.node n).stats).toNat = min (UInt64.size - 1) recorded) := by
  obtain ⟨l, journal, he, hheard⟩ := Request.exec_updateHeartbeat_heard hs hn h
  refine ⟨_, l, journal, he, ?_⟩
  intro f recorded superseded
  have htotal : (f.total (l.node n).stats).toNat = min (UInt64.size - 1) (recorded + superseded) :=
    hheard.total_eq_recorded hs.orderly f
  refine ⟨htotal, ?_, ?_⟩
  · rw [htotal]
    omega
  · intro hnodup
    have hzero : superseded = 0 := Ledger.supersededSum_eq_zero hnodup f
    rw [htotal, hzero, Nat.add_zero]

theorem totals_against_volumes_of_mixed_reports :
    let s := ({} : Service).run twoVolumes
    ∃ unknown l journal, (Request.updateHeartbeat ⟨0⟩ mixedReports).exec s = (.ok unknown, ⟨l, journal⟩) ∧
      (Figure.dfsUsed.total (l.node ⟨0⟩).stats).toNat = 11 ∧
      s.ledger.recordedSum l ⟨0⟩ mixedReports.reports .dfsUsed = 7 := by
  intro s
  have hs : Reachable s := Reachable.run (.start 0) (by decide +kernel)
  obtain ⟨unknown, l, journal, he, hfigures⟩ := totals_against_volumes hs (n := ⟨0⟩) (by decide +kernel) mixedReports
  have hl : l = ((Request.updateHeartbeat ⟨0⟩ mixedReports).exec s).2.ledger := by rw [he]
  have hrecorded : s.ledger.recordedSum l ⟨0⟩ mixedReports.reports .dfsUsed = 7 := by
    rw [hl]
    decide +kernel
  have hsuperseded : s.ledger.supersededSum ⟨0⟩ mixedReports.reports .dfsUsed = 4 := by decide +kernel
  have htotal := (hfigures .dfsUsed).1
  simp only [hrecorded, hsuperseded] at htotal
  exact ⟨unknown, l, journal, he, htotal, hrecorded⟩

/-- The volume "A" twice, with the same figures. -/
def repeatedReport : Heartbeat where
  reports := List.replicate 2
    { storage := { id := "A" }, capacity := 10, dfsUsed := 4, remaining := 6, blockPoolUsed := 4 }

/-- A volume that is named twice enters the totals twice: they are not what is recorded on the volumes. -/
theorem repeated_volume_counts_twice :
    let s := ({} : Service).run twoVolumes
    let l := ((Request.updateHeartbeat ⟨0⟩ repeatedReport).exec s).2.ledger
    Reachable s ∧ (s.ledger.about ⟨0⟩ repeatedReport.reports).dedup = [⟨0⟩] ∧
      (l.storage ⟨0⟩).usage.capacity = 10 ∧ (l.node ⟨0⟩).stats.capacity = 20 ∧
      ∀ f : Figure, (f.total (l.node ⟨0⟩).stats).toNat ≠
        min (UInt64.size - 1) (s.ledger.recordedSum l ⟨0⟩ repeatedReport.reports f) := by
  refine ⟨Reachable.run (.start 0) (by decide +kernel), by decide +kernel, by decide +kernel, by decide +kernel, ?_⟩
  intro f
  cases f <;> decide +kernel

end DatanodeLedger
