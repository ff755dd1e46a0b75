import DatanodeLedger.Proofs.Registry.Beats
import DatanodeLedger.Proofs.Run.Orderly
import Mathlib.Algebra.GroupWithZero.Nat
import Mathlib.Data.List.Perm.Basic

/-! The figures in a heartbeat. Every report of a known volume goes into two places: into the record of its
volume, where it takes the place of what was there, and into the totals of the node, which start at zero with
every heartbeat and stop at the greatest word. -/
namespace DatanodeLedger

/-- The figures that are reported of a volume and totalled for a node. -/
inductive Figure where
  | capacity
  | remaining
  | dfsUsed
  | blockPoolUsed
  deriving DecidableEq, Repr

namespace Figure

def reported (f : Figure) (r : StorageReport) : UInt64 :=
  match f with
  | capacity => r.capacity
  | remaining => r.remaining
  | dfsUsed => r.dfsUsed
  | blockPoolUsed => r.blockPoolUsed

def recorded (f : Figure) (u : Usage) : UInt64 :=
  match f with
  | capacity => u.capacity
  | remaining => u.remaining
  | dfsUsed => u.dfsUsed
  | blockPoolUsed => u.blockPoolUsed

def total (f : Figure) (stats : NodeStats) : UInt64 :=
  match f with
  | capacity => stats.capacity
  | remaining => stats.remaining
  | dfsUsed => stats.dfsUsed
  | blockPoolUsed => stats.blockPoolUsed

/-- The exact sum over some reports. -/
def sum (f : Figure) (reports : List StorageReport) : Nat := (reports.map fun r => (f.reported r).toNat).sum

theorem sum_cons (f : Figure) (r : StorageReport) (reports : List StorageReport) :
    f.sum (r :: reports) = (f.reported r).toNat + f.sum reports := by
  rw [sum, List.map_cons, List.sum_cons]
  rfl

theorem sum_perm (f : Figure) {reports reports' : List StorageReport} (h : reports.Perm reports') :
    f.sum reports = f.sum reports' :=
  (h.map _).sum_nat

theorem total_add (f : Figure) (stats : NodeStats) (r : StorageReport) :
    f.total (stats.add r) = Word.saturatingAdd (f.total stats) (f.reported r) := by
  cases f <;> rfl

/-- Sums that stop at the greatest word on the way stop there in the end. -/
theorem toNat_total_foldl (f : Figure) (reports : List StorageReport) (stats : NodeStats) :
    (f.total (reports.foldl NodeStats.add stats)).toNat =
      min (UInt64.size - 1) ((f.total stats).toNat + f.sum reports) := by
  induction reports generalizing stats with
  | nil =>
    have hlt : (f.total stats).toNat < UInt64.size := (f.total stats).toNat_lt_size
    change (f.total stats).toNat = min (UInt64.size - 1) ((f.total stats).toNat + 0)
    omega
  | cons r reports ih =>
    rw [List.foldl_cons, ih, total_add, Word.toNat_saturatingAdd, sum_cons]
    omega

end Figure

namespace Ledger
variable {l : Ledger} {n : NodeRef} {v : StorageRef} {now : UInt64}

theorem storageOf?_takeReports (l : Ledger) (n : NodeRef) (now : UInt64) (reports : List StorageReport) (id : String) :
    (l.takeReports n now reports).storageOf? n id = l.storageOf? n id := by
  unfold storageOf?
  rw [node_takeReports]

theorem takeReports_append (l : Ledger) (n : NodeRef) (now : UInt64) (reports reports' : List StorageReport) :
    l.takeReports n now (reports ++ reports') = (l.takeReports n now reports).takeReports n now reports' :=
  List.foldl_append

theorem takeReport_of_some {r : StorageReport} (h : l.storageOf? n r.storage.id = some v) :
    takeReport n now l r = l.modifyStorage v fun storage => storage.receiveHeartbeat r now := by
  unfold takeReport
  rw [h]

theorem takeReport_of_none {r : StorageReport} (h : l.storageOf? n r.storage.id = none) : takeReport n now l r = l := by
  unfold takeReport
  rw [h]

theorem storage_takeReport_of_ne {r : StorageReport} (h : l.storageOf? n r.storage.id ≠ some v) :
    (takeReport n now l r).storage v = l.storage v := by
  cases hw : l.storageOf? n r.storage.id with
  | none => rw [takeReport_of_none hw]
  | some w =>
    rw [takeReport_of_some hw]
    apply storage_modifyStorage_of_ne
    rintro rfl
    exact h hw

/-- A volume that no report is about stays as it was. -/
theorem storage_takeReports_of_ne {reports : List StorageReport}
    (h : ∀ r ∈ reports, l.storageOf? n r.storage.id ≠ some v) :
    (l.takeReports n now reports).storage v = l.storage v := by
  induction reports generalizing l with
  | nil => rfl
  | cons r reports ih =>
    have hone : (takeReport n now l r).storage v = l.storage v := storage_takeReport_of_ne (h r List.mem_cons_self)
    refine Eq.trans (ih ?_) hone
    intro r' hr'
    have hsame : (takeReport n now l r).storageOf? n r'.storage.id = l.storageOf? n r'.storage.id :=
      storageOf?_takeReports l n now [r] r'.storage.id
    rw [hsame]
    exact h r' (List.mem_cons_of_mem r hr')

theorem size_storages_takeReports (l : Ledger) (n : NodeRef) (now : UInt64) (reports : List StorageReport) :
    (l.takeReports n now reports).storages.size = l.storages.size := by
  induction reports generalizing l with
  | nil => rfl
  | cons r reports ih =>
    refine Eq.trans (ih _) ?_
    unfold takeReport
    split
    · exact Array.size_modify
    · rfl

/-- What a report writes hides whatever earlier reports have written. -/
theorem receiveHeartbeat_takeReports (l : Ledger) (n : NodeRef) (now : UInt64) (reports : List StorageReport)
    (v : StorageRef) (r : StorageReport) :
    ((l.takeReports n now reports).storage v).receiveHeartbeat r now = (l.storage v).receiveHeartbeat r now := by
  induction reports generalizing l with
  | nil => rfl
  | cons r' reports ih =>
    refine Eq.trans (ih (takeReport n now l r')) ?_
    unfold takeReport
    split
    · exact storage_modifyStorage_congr (fun storage => storage.receiveHeartbeat r now) rfl v
    · rfl

/-- A volume has what the last report on it says. -/
theorem storage_takeReports_of_last (hv : v.index < l.storages.size) {r : StorageReport}
    (hr : l.storageOf? n r.storage.id = some v) (before : List StorageReport) {later : List StorageReport}
    (hlater : ∀ r' ∈ later, l.storageOf? n r'.storage.id ≠ some v) :
    (l.takeReports n now (before ++ r :: later)).storage v = (l.storage v).receiveHeartbeat r now := by
  have hfound : (l.takeReports n now before).storageOf? n r.storage.id = some v := by
    rw [storageOf?_takeReports]
    exact hr
  have hmade : v.index < (l.takeReports n now before).storages.size := by
    rw [size_storages_takeReports]
    exact hv
  have hsplit : l.takeReports n now (before ++ r :: later) =
      ((l.takeReports n now before).takeReports n now [r]).takeReports n now later := by
    rw [List.append_cons, takeReports_append, takeReports_append]
  have hrest : ∀ r' ∈ later,
      ((l.takeReports n now before).takeReports n now [r]).storageOf? n r'.storage.id ≠ some v := by
    intro r' hr'
    rw [storageOf?_takeReports, storageOf?_takeReports]
    exact hlater r' hr'
  calc (l.takeReports n now (before ++ r :: later)).storage v
      = ((l.takeReports n now before).takeReports n now [r]).storage v := by
        rw [hsplit, storage_takeReports_of_ne hrest]
    _ = ((l.takeReports n now before).storage v).receiveHeartbeat r now := by
        change (takeReport n now (l.takeReports n now before) r).storage v = _
        rw [takeReport_of_some hfound, storage_modifyStorage hmade]
    _ = (l.storage v).receiveHeartbeat r now := receiveHeartbeat_takeReports l n now before v r

/-- A volume is entered under one id only. -/
theorem Orderly.storageOf?_inj (h : l.Orderly) {id id' : String} (hid : l.storageOf? n id = some v)
    (hid' : l.storageOf? n id' = some v) : id = id' := by
  have hname : ∀ i, l.storageOf? n i = some v → (l.storage v).id = i := by
    intro i hi
    exact h.named n i v ((Table.find?_eq_some_iff (h.keys n)).1 hi)
  rw [← hname id hid, hname id' hid']

theorem Orderly.lt_size_of_storageOf? (h : l.Orderly) {id : String} (hid : l.storageOf? n id = some v) :
    v.index < l.storages.size :=
  h.made n v (Table.mem_values_of_find? hid)

/-- What a heartbeat of a node makes of a ledger. -/
structure Heard (l : Ledger) (n : NodeRef) (h : Heartbeat) (l' : Ledger) : Prop where
  /-- a total is the exact sum over the reports of known volumes, as far as a word can hold it -/
  totals : ∀ f : Figure, (f.total (l'.node n).stats).toNat =
    min (UInt64.size - 1) (f.sum (h.reports.filter fun r => (l.storageOf? n r.storage.id).isSome))
  /-- besides the totals there is what the heartbeat says for the node as a whole -/
  stats : (l'.node n).stats = { (l'.node n).stats with
    cacheCapacity := h.cacheCapacity, cacheUsed := h.cacheUsed, transfers := h.transfers, lastUpdate := l.now }
  /-- a known volume that is named has the state and the figures of the last report that names it -/
  named : ∀ before r later v, h.reports = before ++ r :: later → (∀ r' ∈ later, r'.storage.id ≠ r.storage.id) →
    l.storageOf? n r.storage.id = some v →
      l'.storage v = { l.storage v with
        state := if r.failed then .failed else r.storage.state
        usage := { capacity := r.capacity, remaining := r.remaining, dfsUsed := r.dfsUsed,
                   blockPoolUsed := r.blockPoolUsed, lastUpdate := (l'.node n).stats.lastUpdate } }
  unnamed : ∀ v, (∀ r ∈ h.reports, l.storageOf? n r.storage.id ≠ some v) → l'.storage v = l.storage v
  /-- the volumes of the node and the work that waits for it are the same -/
  node : l'.node n = { l.node n with volumeFailures := h.volumeFailures, stats := (l'.node n).stats }
  others : ∀ m, m ≠ n → l'.node m = l.node m
  /-- nothing is made -/
  sizes : l'.nodes.size = l.nodes.size ∧ l'.storages.size = l.storages.size
  rest : l' = { l with nodes := l'.nodes, storages := l'.storages }

theorem heard_takeReports (ho : l.Orderly) (hn : n.index < l.nodes.size) (h : Heartbeat) :
    l.Heard n h ((l.takeReports n l.now h.reports).setNode n ((l.node n).receive l.now h)) := by
  have hmade : n.index < (l.takeReports n l.now h.reports).nodes.size := by
    rw [takeReports_eq]
    exact hn
  have hnode : ((l.takeReports n l.now h.reports).setNode n ((l.node n).receive l.now h)).node n =
      (l.node n).receive l.now h := node_setNode hmade _
  exact {
    totals := by
      intro f
      rw [hnode]
      have hsum := f.toNat_total_foldl (h.reports.filter (l.node n).knows) {}
      have hzero : (f.total {}).toNat = 0 := by cases f <;> rfl
      rw [hzero, Nat.zero_add] at hsum
      refine Eq.trans ?_ hsum
      cases f <;> rfl
    stats := by
      rw [hnode]
      rfl
    named := by
      intro before r later v hsplit hlater hv
      rw [hnode, hsplit]
      have hapart : ∀ r' ∈ later, l.storageOf? n r'.storage.id ≠ some v := by
        intro r' hr' hv'
        exact hlater r' hr' (ho.storageOf?_inj hv' hv)
      exact storage_takeReports_of_last (ho.lt_size_of_storageOf? hv) hv before hapart
    unnamed := fun v hv => storage_takeReports_of_ne hv
    node := by
      rw [hnode]
      rfl
    others := fun m hm => (node_modifyNode_of_ne hm _).trans (node_takeReports l n l.now h.reports m)
    sizes := by
      refine ⟨Array.size_modify.trans ?_, size_storages_takeReports l n l.now h.reports⟩
      rw [takeReports_eq]
    rest := by
      have hnodes : (l.takeReports n l.now h.reports).setNode n ((l.node n).receive l.now h) =
          { l.takeReports n l.now h.reports with
            nodes := ((l.takeReports n l.now h.reports).setNode n ((l.node n).receive l.now h)).nodes } := rfl
      rw [hnodes, takeReports_eq] }

/-- Totals are the same for whatever heartbeat reports the same in another order, to whatever node that knows the
same ids. -/
theorem Heard.total_eq {l' l₁ l₁' : Ledger} {m : NodeRef} {h h' : Heartbeat} (hl : l.Heard n h l₁)
    (hl' : l'.Heard m h' l₁') (hreports : h'.reports.Perm h.reports)
    (hknown : ∀ id, (l'.storageOf? m id).isSome = (l.storageOf? n id).isSome) (f : Figure) :
    f.total (l₁'.node m).stats = f.total (l₁.node n).stats := by
  apply UInt64.toNat_inj.1
  rw [hl.totals, hl'.totals, f.sum_perm (hreports.filter _)]
  simp only [hknown]

end Ledger

/-- A heartbeat is taken in whatever it reports, and its answer is the number of reports that are not about a volume
of the node. -/
theorem Request.exec_updateHeartbeat_heard {s : Service} (hs : Reachable s) {n : NodeRef}
    (hn : n.index < s.ledger.nodes.size) (h : Heartbeat) :
    ∃ l journal, (Request.updateHeartbeat n h).exec s =
        (.ok (h.reports.countP fun r => (s.ledger.storageOf? n r.storage.id).isNone), ⟨l, journal⟩) ∧
      s.ledger.Heard n h l := by
  obtain ⟨journal, he⟩ := Request.exec_updateHeartbeat hn h
  refine ⟨_, journal, he.trans ?_, Ledger.heard_takeReports hs.orderly hn h⟩
  simp only [Ledger.not_knows]

/-- Whatever a node has gone through and whatever is reported to it, a heartbeat writes what the last report on a
volume says, and totals that are the exact sums over the reports of known volumes, as far as a word can hold them.
The totals depend neither on the order of the reports nor on anything that was before except the ids of the node's
volumes. -/
theorem heartbeat_figures {s : Service} (hs : Reachable s) {n : NodeRef} (hn : n.index < s.ledger.nodes.size)
    (h : Heartbeat) :
    ∃ l journal, (Request.updateHeartbeat n h).exec s =
        (.ok (h.reports.countP fun r => (s.ledger.storageOf? n r.storage.id).isNone), ⟨l, journal⟩) ∧
      s.ledger.Heard n h l ∧
      ∀ s', Reachable s' → ∀ m : NodeRef, m.index < s'.ledger.nodes.size → ∀ h' : Heartbeat,
        h'.reports.Perm h.reports → (∀ id, (s'.ledger.storageOf? m id).isSome = (s.ledger.storageOf? n id).isSome) →
          ∀ f : Figure, f.total (((Request.updateHeartbeat m h').exec s').2.ledger.node m).stats =
            f.total (l.node n).stats := by
  obtain ⟨l, journal, he, hheard⟩ := Request.exec_updateHeartbeat_heard hs hn h
  refine ⟨l, journal, he, hheard, ?_⟩
  intro s' hs' m hm h' hreports hknown f
  obtain ⟨l', journal', he', hheard'⟩ := Request.exec_updateHeartbeat_heard hs' hm h'
  rw [he']
  exact hheard.total_eq hheard' hreports hknown f

/-- A node with two volumes. -/
def twoVolumes : List Step :=
  [.makeNode (Registration.ofAddress "n" "10.0.0.1" 9866) "/default-rack", .updateStorage ⟨0⟩ { id := "A" },
    .updateStorage ⟨0⟩ { id := "B", state := .readOnly }]

/-- One volume is reported twice, one as failed, and one is not known. -/
def mixedReports : Heartbeat where
  reports :=
    [{ storage := { id := "A" }, capacity := 18446744073709551610, dfsUsed := 4, remaining := 1, blockPoolUsed := 9 },
      { storage := { id := "X" }, capacity := 50, dfsUsed := 50, remaining := 50, blockPoolUsed := 50 },
      { storage := { id := "B" }, failed := true, capacity := 3, dfsUsed := 2, remaining := 1, blockPoolUsed := 0 },
      { storage := { id := "A", state := .readOnly }, capacity := 7, dfsUsed := 5, remaining := 2, blockPoolUsed := 6 }]

theorem heartbeat_figures_at_the_limit :
    let s := ({} : Service).run twoVolumes
    ∃ l journal, (Request.updateHeartbeat ⟨0⟩ mixedReports).exec s = (.ok 1, ⟨l, journal⟩) ∧
      Figure.capacity.total (l.node ⟨0⟩).stats = 18446744073709551615 ∧
      Figure.dfsUsed.total (l.node ⟨0⟩).stats = 11 ∧
      (l.storage ⟨0⟩).usage.capacity = 7 ∧ (l.storage ⟨0⟩).state = .readOnly ∧ (l.storage ⟨1⟩).state = .failed := by
  intro s
  have hs : Reachable s := Reachable.run (.start 0) (by decide +kernel)
  obtain ⟨l, journal, he, hheard, -⟩ := heartbeat_figures hs (n := ⟨0⟩) (by decide +kernel) mixedReports
  have hA := hheard.named (mixedReports.reports.take 3) _ [] ⟨0⟩ rfl (by decide) (by decide +kernel)
  have hB := hheard.named (mixedReports.reports.take 2) _ _ ⟨1⟩ rfl (by decide) (by decide +kernel)
  refine ⟨l, journal, he, ?_, ?_, ?_, ?_, ?_⟩
  · exact UInt64.toNat_inj.1 ((hheard.totals .capacity).trans (by decide +kernel))
  · exact UInt64.toNat_inj.1 ((hheard.totals .dfsUsed).trans (by decide +kernel))
  · rw [hA]
  · rw [hA]
    rfl
  · rw [hB]
    rfl

end DatanodeLedger
