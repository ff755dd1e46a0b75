import DatanodeLedger.Proofs.Registry.Announcing
import DatanodeLedger.Proofs.Registry.Removal
import DatanodeLedger.Proofs.Registry.Standing
import Mathlib.Data.List.Perm.Subperm

/-! Registering a node that is known. What the node has reported is forgotten, since it is about to report in full, and
everything else is kept: its volumes with their blocks, the work that waits for it, its notices and its decommission. -/
namespace DatanodeLedger
open Announcement (lastState lastState_lastState)

theorem CacheLists.clearAll_clearAll (lists : CacheLists) : lists.clearAll.clearAll = lists.clearAll :=
  congrArg (fun ends => CacheLists.mk { lists := ends }) Array.map_map

/-- A known node that has got its address, and of which all that it has reported has been forgotten. -/
def Node.comeBack (node : Node) (r : Registration) : Node :=
  { (node.readdress r).forgetReports with cache := node.cache.clearAll }

namespace Ledger
variable {l l₁ l₂ l' : Ledger} {c : CoordinatorRef} {n : NodeRef} {r : Registration} {storages : List Announcement}

/-- What registering a known node comes to. -/
structure Readmitted (c : CoordinatorRef) (n : NodeRef) (r : Registration) (storages : List Announcement)
    (l l' : Ledger) : Prop extends l.Entered n storages l' where
  rest : l' = { l with
    locks := l'.locks, storages := l'.storages, nodes := l'.nodes, coordinators := l'.coordinators }
  locks : l'.locks = (l.release (l.coordinator c).lock).locks
  coordinators : l'.coordinators = if (l.node n).alive then l.coordinators else
    (l.modifyCoordinator c fun k => { k with metrics := k.metrics.raise .liveDatanodes }).coordinators
  node : l'.node n = { l.node n with
    registration := r
    storages := (l'.node n).storages
    stats := { lastUpdate := l.now }
    alive := true
    volumeFailures := 0
    invalidations := {}
    cache := (l.node n).cache.clearAll }
  uncached : (l'.node n).cache.isEmpty = true ∧ ∀ id, (l'.node n).cache.listOf? id = .ok none
  stages : ∀ stage, ((l.node n).cache.length stage).isOk = true → (l'.node n).cache.blocks stage = .ok []
  old : ∀ id v, (id, v) ∈ (l.node n).storages.entries → l'.storage v = { l.storage v with
    state := lastState storages id (l.storage v).state
    blockReports := 0 }

section welcome

theorem modifyStorages_eq (l : Ledger) (vs : List StorageRef) (f : Storage → Storage) :
    l.modifyStorages vs f = { l with storages := (l.modifyStorages vs f).storages } := by
  induction vs generalizing l with
  | nil => rfl
  | cons v vs ih => exact ih (l.modifyStorage v f)

theorem size_modifyStorages (l : Ledger) (vs : List StorageRef) (f : Storage → Storage) :
    (l.modifyStorages vs f).storages.size = l.storages.size := by
  induction vs generalizing l with
  | nil => rfl
  | cons v vs ih => exact (ih (l.modifyStorage v f)).trans Array.size_modify

/-- A change that makes no difference when it is made again is made once in each of the volumes. -/
theorem storage_modifyStorages {vs : List StorageRef} (hmade : ∀ v ∈ vs, v.index < l.storages.size)
    (f : Storage → Storage) (hf : ∀ storage, f (f storage) = f storage) (v : StorageRef) :
    (l.modifyStorages vs f).storage v = if v ∈ vs then f (l.storage v) else l.storage v := by
  induction vs generalizing l with
  | nil => rfl
  | cons w vs ih =>
    have hsize : (l.modifyStorage w f).storages.size = l.storages.size := Array.size_modify
    have hrest := ih (l := l.modifyStorage w f) fun u hu => hsize ▸ hmade u (List.mem_cons_of_mem w hu)
    refine hrest.trans ?_
    by_cases hv : v = w
    · subst hv
      rw [storage_modifyStorage (hmade v List.mem_cons_self), if_pos List.mem_cons_self, hf, ite_self]
    · have hmem : v ∈ w :: vs ↔ v ∈ vs := List.mem_cons.trans (or_iff_right hv)
      simp only [storage_modifyStorage_of_ne hv, hmem]

theorem modifyStorages_modifyNode (l : Ledger) (vs : List StorageRef) (f : Storage → Storage) (n : NodeRef)
    (g : Node → Node) : (l.modifyNode n g).modifyStorages vs f = (l.modifyStorages vs f).modifyNode n g := by
  induction vs generalizing l with
  | nil => rfl
  | cons v vs ih => exact ih (l.modifyStorage v f)

/-- Taking a known node back in changes its volumes, the node, and the lock of its coordinator. -/
theorem welcome_eq (l : Ledger) (c : CoordinatorRef) (n : NodeRef) (r : Registration) :
    l.welcome c n r = ((l.modifyStorages (l.node n).storages.values fun storage =>
      { storage with blockReports := 0 }).modifyNode n fun node => node.comeBack r).release (l.coordinator c).lock := by
  unfold welcome readdress
  rw [modifyStorages_modifyNode]
  unfold release take clearCache modifyNode modifyLock
  simp only [modify_modify]
  rfl

theorem Orderly.welcome (ho : l.Orderly) (h : l.Enrolled) (hfind : (l.coordinator c).nodes.find? r.uuid = some n) :
    (l.welcome c n r).Orderly :=
  (rel_welcome h hfind : l.KeepsOrder _) ho

theorem node_welcome (hn : n.index < l.nodes.size) (c : CoordinatorRef) (r : Registration) (m : NodeRef) :
    (l.welcome c n r).node m = if n = m then (l.node m).comeBack r else l.node m := by
  rw [welcome_eq, modifyStorages_eq]
  exact node_modifyNode_ite hn _ m

theorem storage_welcome (ho : l.Orderly) (c : CoordinatorRef) (n : NodeRef) (r : Registration) (v : StorageRef) :
    (l.welcome c n r).storage v =
      if v ∈ (l.node n).storages.values then { l.storage v with blockReports := 0 } else l.storage v := by
  rw [welcome_eq]
  exact storage_modifyStorages (ho.made n) (fun storage : Storage => { storage with blockReports := 0 }) (fun _ => rfl) v

theorem size_welcome (l : Ledger) (c : CoordinatorRef) (n : NodeRef) (r : Registration) :
    (l.welcome c n r).storages.size = l.storages.size ∧ (l.welcome c n r).nodes.size = l.nodes.size := by
  rw [welcome_eq]
  refine ⟨size_modifyStorages _ _ _, Array.size_modify.trans ?_⟩
  rw [modifyStorages_eq]

end welcome

section settle

/-- Volumes are announced before the node is alive. -/
theorem settle_eq (l : Ledger) (c : CoordinatorRef) (n : NodeRef) (storages : List Announcement) :
    l.settle c n storages = { l.updateStorages n storages with
      nodes := (l.settle c n storages).nodes, coordinators := (l.settle c n storages).coordinators } := by
  unfold settle hear revive
  split <;> rfl

theorem storage_settle (l : Ledger) (c : CoordinatorRef) (n : NodeRef) (storages : List Announcement)
    (v : StorageRef) : (l.settle c n storages).storage v = (l.updateStorages n storages).storage v := by
  rw [settle_eq]
  rfl

/-- A node that has announced its volumes has been heard of just now, and is alive. -/
theorem node_settle (h : l.Announced n storages (l.updateStorages n storages)) (hn : n.index < l.nodes.size)
    (c : CoordinatorRef) (m : NodeRef) : (l.settle c n storages).node m =
      if n = m then
        { l.node m with
          storages := ((l.updateStorages n storages).node m).storages
          stats := { (l.node m).stats with lastUpdate := l.now }
          alive := true }
      else l.node m := by
  have hnow : (l.updateStorages n storages).now = l.now := by
    rw [h.rest]
    rfl
  have hlt : n.index < (l.updateStorages n storages).nodes.size := h.nodes ▸ hn
  have hear : l.hear n storages =
      (l.updateStorages n storages).modifyNode n (·.setLastUpdate (l.updateStorages n storages).now) := rfl
  unfold settle
  rw [hear, node_revive _ c (Nat.lt_of_lt_of_eq hlt Array.size_modify.symm), node_modifyNode_ite hlt, hnow]
  by_cases hm : m = n
  · subst hm
    simp only [if_true]
    rw [h.node]
    rfl
  · rw [if_neg hm, if_neg (Ne.symm hm), if_neg (Ne.symm hm), h.others m hm]

theorem size_settle (h : l.Announced n storages (l.updateStorages n storages)) (c : CoordinatorRef) :
    (l.settle c n storages).nodes.size = l.nodes.size := by
  have hheard : (l.hear n storages).nodes.size = l.nodes.size := Array.size_modify.trans h.nodes
  unfold settle revive
  split
  · exact hheard
  · exact Array.size_modify.trans hheard

/-- The gauge of the coordinator rises if the node was dead. -/
theorem coordinators_settle (h : l.Announced n storages (l.updateStorages n storages)) (c : CoordinatorRef) :
    (l.settle c n storages).coordinators = if (l.node n).alive then l.coordinators else
      (l.modifyCoordinator c fun k => { k with metrics := k.metrics.raise .liveDatanodes }).coordinators := by
  have hcoordinators : (l.hear n storages).coordinators = l.coordinators := by
    have hupdated : (l.updateStorages n storages).coordinators = l.coordinators := by rw [h.rest]
    exact hupdated
  have halive : ((l.hear n storages).node n).alive = (l.node n).alive := by
    have hheard : ((l.hear n storages).node n).alive = ((l.updateStorages n storages).node n).alive :=
      node_modifyNode_congr Node.alive rfl n
    rw [hheard, h.node]
  unfold settle revive
  rw [halive]
  split
  · exact hcoordinators
  · unfold modifyCoordinator
    rw [← hcoordinators]
    rfl

end settle

/-- The node that is taken back in keeps all but its address, its volumes and what it has reported. -/
private theorem node_settle_welcome (h : l.Enrolled) (hfind : (l.coordinator c).nodes.find? r.uuid = some n)
    (ha : (l.welcome c n r).Announced n storages ((l.welcome c n r).updateStorages n storages)) :
    ((l.welcome c n r).settle c n storages).node n = { l.node n with
      registration := r
      storages := (((l.welcome c n r).updateStorages n storages).node n).storages
      stats := { lastUpdate := l.now }
      alive := true
      volumeFailures := 0
      invalidations := {}
      cache := (l.node n).cache.clearAll } := by
  have hmade := h.made c _ n hfind
  have hown : (l.welcome c n r).node n = (l.node n).comeBack r := (node_welcome hmade c r n).trans (if_pos rfl)
  have hr : ({ r with uuid := (l.node n).uuid } : Registration) = r := by rw [h.uuid c _ n hfind]
  have hnow : (l.welcome c n r).now = l.now := by
    rw [welcome_eq, modifyStorages_eq]
    rfl
  have hmade' : n.index < (l.welcome c n r).nodes.size := Nat.lt_of_lt_of_eq hmade (size_welcome l c n r).2.symm
  rw [node_settle ha hmade', if_pos rfl, hown, hnow, ← hr]
  rfl

/-- A known node that has been taken back in, and has announced its volumes, is readmitted. -/
theorem readmitted_settle (ho : l.Orderly) (h : l.Enrolled) (hfind : (l.coordinator c).nodes.find? r.uuid = some n)
    (storages : List Announcement) :
    l.Readmitted c n r storages ((l.welcome c n r).settle c n storages) := by
  have hmade : n.index < l.nodes.size := h.made c _ n hfind
  obtain ⟨hvolumes, hnodes⟩ := size_welcome l c n r
  have hown : (l.welcome c n r).node n = (l.node n).comeBack r := (node_welcome hmade c r n).trans (if_pos rfl)
  have htable : ((l.welcome c n r).node n).storages = (l.node n).storages := by
    rw [hown]
    rfl
  have huuid : ((l.welcome c n r).node n).uuid = (l.node n).uuid := by
    rw [hown]
    rfl
  have hmade' : n.index < (l.welcome c n r).nodes.size := Nat.lt_of_lt_of_eq hmade hnodes.symm
  have ha := announced_updateStorages (ho.welcome h hfind) hmade' storages
  have hself := node_settle_welcome h hfind ha
  have hreset : ∀ v ∈ (l.node n).storages.values,
      (l.welcome c n r).storage v = { l.storage v with blockReports := 0 } :=
    fun v hv => (storage_welcome ho c n r v).trans (if_pos hv)
  have hkept : ∀ v, v ∉ (l.node n).storages.values → (l.welcome c n r).storage v = l.storage v :=
    fun v hv => (storage_welcome ho c n r v).trans (if_neg hv)
  exact {
    rest := by
      rw [settle_eq, ha.rest, welcome_eq, modifyStorages_eq]
      rfl
    locks := by
      rw [settle_eq, ha.rest, welcome_eq, modifyStorages_eq]
      rfl
    coordinators := by
      have hsame : (l.welcome c n r).coordinators = l.coordinators := by
        rw [welcome_eq, modifyStorages_eq]
        rfl
      rw [coordinators_settle ha, hown]
      unfold modifyCoordinator
      rw [hsame]
      rfl
    nodes := (size_settle ha c).trans hnodes
    others := fun m hm => by
      have hwelcome : (l.welcome c n r).node m = l.node m :=
        (node_welcome hmade c r m).trans (if_neg (Ne.symm hm))
      exact ((node_settle ha hmade' c m).trans (if_neg (Ne.symm hm))).trans hwelcome
    node := by rw [hself]
    uncached := by
      rw [hself]
      exact ⟨rfl, (l.node n).cache.listOf?_clearAll⟩
    stages := fun stage hstage => by
      rw [hself]
      exact (l.node n).cache.blocks_clearAll ((l.node n).cache.isOk_length_clearAll stage ▸ hstage)
    kept := by
      rw [hself, ← htable]
      exact ha.kept
    keys := by
      rw [hself, ← htable]
      exact ha.keys
    size := by
      rw [hself, ← htable, ← hvolumes, settle_eq]
      exact ha.size
    old := fun id v he => by
      have he' : (id, v) ∈ ((l.welcome c n r).node n).storages.entries := by rwa [htable]
      rw [storage_settle, ha.old id v he', hreset v (List.mem_map_of_mem he)]
    fresh := fun id v he => by
      rw [hself] at he
      rw [storage_settle, ← htable, ← hvolumes, ← huuid]
      exact ha.fresh id v he
    apart := fun v hlt hv => by
      have hv' : v ∉ ((l.welcome c n r).node n).storages.values := by rwa [htable]
      rw [storage_settle, ha.apart v (Nat.lt_of_lt_of_eq hlt hvolumes.symm) hv', hkept v hv] }

namespace Readmitted

/-- No volume of the node counts block reports any more, and each is in the state that was announced last. -/
theorem volume (h : l.Readmitted c n r storages l') {id : String} {v : StorageRef}
    (he : (id, v) ∈ (l'.node n).storages.entries) :
    (l'.storage v).blockReports = 0 ∧ lastState storages id (l'.storage v).state = (l'.storage v).state := by
  rcases h.fresh id v he with hold | ⟨-, -, a, -, hstorage⟩
  · rw [h.old id v hold]
    exact ⟨rfl, lastState_lastState storages id _⟩
  · rw [hstorage]
    exact ⟨rfl, lastState_lastState storages id _⟩

/-- Volumes list the blocks that they listed, and show the figures that they showed. -/
theorem lists (h : l.Readmitted c n r storages l') {v : StorageRef} (hv : v.index < l.storages.size) :
    (l'.storage v).blocks = (l.storage v).blocks ∧ (l'.storage v).usage = (l.storage v).usage := by
  by_cases hmem : v ∈ (l.node n).storages.values
  · obtain ⟨⟨id, v⟩, he, rfl⟩ := List.mem_map.1 hmem
    rw [h.old id v he]
    exact ⟨rfl, rfl⟩
  · rw [h.apart v hv hmem]
    exact ⟨rfl, rfl⟩

theorem blocks (h : l.Readmitted c n r storages l') : l'.blocks = l.blocks := by
  rw [h.rest]

/-- The coordinators keep their registries and their locks. -/
theorem nodes_coordinator (h : l.Readmitted c n r storages l') (k : CoordinatorRef) :
    (l'.coordinator k).nodes = (l.coordinator k).nodes ∧ (l'.coordinator k).lock = (l.coordinator k).lock := by
  have hcoordinators := h.coordinators
  split at hcoordinators
  · unfold coordinator
    rw [hcoordinators]
    exact ⟨rfl, rfl⟩
  · have hraised : l'.coordinator k =
        (l.modifyCoordinator c fun k => { k with metrics := k.metrics.raise .liveDatanodes }).coordinator k := by
      unfold coordinator
      rw [hcoordinators]
    rw [hraised]
    exact ⟨coordinator_modifyCoordinator_congr Coordinator.nodes rfl k,
      coordinator_modifyCoordinator_congr Coordinator.lock rfl k⟩

section again

/-- Announced once more, no volume is new. -/
private theorem table_again (h : l.Readmitted c n r storages l₁) (h' : l₁.Readmitted c n r storages l₂)
    (ho : l₂.Orderly) : (l₂.node n).storages = (l₁.node n).storages := by
  have hsub : (l₂.node n).storages.keys ⊆ (l₁.node n).storages.keys := by
    intro id hid
    exact ((h'.keys id).1 hid).elim (fun hold => hold) fun hannounced => (h.keys id).2 (.inr hannounced)
  have hlength := (List.subperm_of_subset (ho.keys n) hsub).length_le
  unfold Table.keys at hlength
  rw [List.length_map, List.length_map] at hlength
  exact congrArg Table.mk (h'.kept.eq_of_length_le hlength).symm

private theorem node_again (h : l.Readmitted c n r storages l₁) (h' : l₁.Readmitted c n r storages l₂)
    (ho : l₂.Orderly) (m : NodeRef) : l₂.node m = l₁.node m := by
  by_cases hm : m = n
  · subst hm
    have hnow : l₁.now = l.now := by
      rw [h.rest]
      rfl
    rw [h'.node, table_again h h' ho, hnow, h.node]
    simp only [CacheLists.clearAll_clearAll]
  · exact h'.others m hm

private theorem storage_again (h : l.Readmitted c n r storages l₁) (h' : l₁.Readmitted c n r storages l₂)
    {v : StorageRef} (hv : v.index < l₁.storages.size) : l₂.storage v = l₁.storage v := by
  by_cases hmem : v ∈ (l₁.node n).storages.values
  · obtain ⟨⟨id, v⟩, he, rfl⟩ := List.mem_map.1 hmem
    obtain ⟨hreports, hstate⟩ := h.volume he
    rw [h'.old id v he, hstate, ← hreports]
  · exact h'.apart v hv hmem

private theorem eq_of_getD {α : Type} [Inhabited α] {as bs : Array α} (hsize : as.size = bs.size)
    (h : ∀ i < bs.size, as[i]?.getD default = bs[i]?.getD default) : as = bs := by
  refine Array.ext hsize fun i hi hi' => ?_
  have hget := h i hi'
  rw [Array.getElem?_eq_getElem hi, Array.getElem?_eq_getElem hi'] at hget
  exact hget

/-- Whoever has just been readmitted is as he is when he is readmitted once more. -/
theorem eq_of_again (h : l.Readmitted c n r storages l₁) (h' : l₁.Readmitted c n r storages l₂) (ho : l₂.Orderly) :
    l₂ = l₁ := by
  have hnodes : l₂.nodes = l₁.nodes := eq_of_getD h'.nodes fun i _ => node_again h h' ho ⟨i⟩
  have hsize : l₂.storages.size = l₁.storages.size := by
    have htotal := h'.size
    rw [table_again h h' ho] at htotal
    exact Nat.add_right_cancel htotal
  have hstorages : l₂.storages = l₁.storages := eq_of_getD hsize fun i hi => storage_again h h' (v := ⟨i⟩) hi
  have hlocks : l₂.locks = l₁.locks := by
    let free (lock : NamespaceLock) : NamespaceLock := { lock with held := false }
    have hfirst : l₁.locks = l.locks.modify (l.coordinator c).lock.index free := h.locks
    have hsecond : l₂.locks = l₁.locks.modify (l₁.coordinator c).lock.index free := h'.locks
    rw [hsecond, (h.nodes_coordinator c).2, hfirst]
    exact modify_modify l.locks _ free free
  have hcoordinators : l₂.coordinators = l₁.coordinators := by
    have halive : (l₁.node n).alive = true := by rw [h.node]
    rw [h'.coordinators, if_pos halive]
  rw [h'.rest, hnodes, hstorages, hlocks, hcoordinators]

end again
end Readmitted

end Ledger

/-- A known node that is registered again is the same record, alive and under its new address. What it has reported is
forgotten: its totals, its failed volumes, the deletions and the cached blocks, and how often its volumes have reported
their blocks. It has the volumes that it had and those that are announced for the first time. All volumes hold the blocks
that they held and show the figures that they showed, other nodes and their volumes are as they were, and so is the
work that waits. To register once more at the same time changes nothing at all. -/
theorem readmission_forgets_reports {s : Service} (hs : Reachable s) {c : CoordinatorRef} {r : Registration} {n : NodeRef}
    (hfind : (s.ledger.coordinator c).nodes.find? r.uuid = some n) (storages : List Announcement) :
    ∃ s', (Request.register c r storages).exec s = (.ok n, s') ∧ s.ledger.Readmitted c n r storages s'.ledger ∧
      (∀ v ∈ (s'.ledger.node n).storages.values, (s'.ledger.storage v).blockReports = 0) ∧
      (∀ v : StorageRef, v.index < s.ledger.storages.size →
        (s'.ledger.storage v).blocks = (s.ledger.storage v).blocks ∧
        (s'.ledger.storage v).usage = (s.ledger.storage v).usage) ∧
      s'.ledger.blocks = s.ledger.blocks ∧
      (∀ m, m ≠ n → s'.ledger.node m = s.ledger.node m ∧
        ∀ v ∈ (s.ledger.node m).storages.values, s'.ledger.storage v = s.ledger.storage v) ∧
      ∃ journal, (Request.register c r storages).exec s' = (.ok n, ⟨s'.ledger, journal⟩) := by
  obtain ⟨journal, he⟩ := Request.exec_register_of_some hs.enrolled storages hfind
  have h := Ledger.readmitted_settle hs.orderly hs.enrolled hfind storages
  let s' : Service := ⟨(s.ledger.welcome c n r).settle c n storages, journal⟩
  have hapart : ∀ m, m ≠ n → ∀ v ∈ (s.ledger.node m).storages.values, s'.ledger.storage v = s.ledger.storage v :=
    fun m hm v hv => h.apart v (hs.orderly.made m v hv) fun hvn => hm (hs.orderly.apart m n v hv hvn)
  have hagain : ∃ journal, (Request.register c r storages).exec s' = (.ok n, ⟨s'.ledger, journal⟩) := by
    have hafter : ∀ {s s' : Service}, (Request.register c r storages).exec s = (.ok n, s') → Reachable s →
        Reachable s' := by
      intro s s' he hs
      have hstep := hs.step (show (Step.register c r storages).Enabled s.ledger from trivial)
      rwa [show (Step.register c r storages).after s = s' from congrArg Prod.snd he] at hstep
    have hs' : Reachable s' := hafter he hs
    have hfind' : (s'.ledger.coordinator c).nodes.find? r.uuid = some n := by
      rw [(h.nodes_coordinator c).1]
      exact hfind
    obtain ⟨journal', he'⟩ := Request.exec_register_of_some hs'.enrolled storages hfind'
    have h' := Ledger.readmitted_settle hs'.orderly hs'.enrolled hfind' storages
    exact ⟨journal', he'.trans (by rw [h.eq_of_again h' (hafter he' hs').orderly])⟩
  refine ⟨s', he, h, fun v hv => ?_, fun v hv => h.lists hv, h.blocks, fun m hm => ⟨h.others m hm, hapart m hm⟩, hagain⟩
  obtain ⟨⟨id, v⟩, hentry, rfl⟩ := List.mem_map.1 hv
  exact (h.volume hentry).1

/-- A node with a block, a recovery and a deletion that wait for it has reported its blocks, and has then fallen
silent. -/
def fallenSilent : List Step :=
  [.makeCoordinator {}, .makeBlock ⟨7, 100, 1⟩ 3, .makeOpenBlock { block := ⟨8, 50, 1⟩ },
    .register ⟨0⟩ (.ofAddress "a" "10.0.0.1" 9866) [{ id := "A" }], .addReportedBlock ⟨0⟩ "a" "A" ⟨0⟩,
    .receiveBlockReport ⟨0⟩, .addRecoveryOn ⟨0⟩ "a" ⟨0⟩, .addInvalidations ⟨0⟩ [⟨9, 10, 1⟩],
    .checkHeartbeats ⟨0⟩ 631000, .setClock 700000]

/-- It comes back from elsewhere, with its old volume read-only now and a new one. -/
theorem readmission_forgets_reports_fallen_silent :
    let s := ({} : Service).run fallenSilent
    let r := Registration.ofAddress "a" "10.0.0.2" 9866
    let storages : List Announcement := [{ id := "A", state := .readOnly }, { id := "B" }]
    (s.ledger.node ⟨0⟩).alive = false ∧ (s.ledger.storage ⟨0⟩).blockReports = 1 ∧
    ∃ s', (Request.register ⟨0⟩ r storages).exec s = (.ok ⟨0⟩, s') ∧ s.ledger.Readmitted ⟨0⟩ ⟨0⟩ r storages s'.ledger ∧
      s'.ledger.storage ⟨0⟩ = { s.ledger.storage ⟨0⟩ with state := .readOnly, blockReports := 0 } := by
  intro s r storages
  have hs : Reachable s := (Reachable.start 0).run (by decide +kernel)
  have hfind : (s.ledger.coordinator ⟨0⟩).nodes.find? r.uuid = some ⟨0⟩ := by decide +kernel
  obtain ⟨s', he, h, -⟩ := readmission_forgets_reports hs hfind storages
  have hentry : ("A", ⟨0⟩) ∈ (s.ledger.node ⟨0⟩).storages.entries := by decide +kernel
  exact ⟨by decide +kernel, by decide +kernel, s', he, h, h.old "A" ⟨0⟩ hentry⟩

end DatanodeLedger
