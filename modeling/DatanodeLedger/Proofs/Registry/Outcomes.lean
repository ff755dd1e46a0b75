import DatanodeLedger.Proofs.Membership.Emptying
import DatanodeLedger.Proofs.Registry.Enrolled

/-! What registering, removing and checking nodes come to, in closed form, where the registries are in order. None
of these requests comes upon a fault then. -/
namespace DatanodeLedger

/-- A live node that has been silent for longer than the expiry interval. -/
def Node.expired (node : Node) (now expiry : UInt64) : Bool :=
  node.alive && decide (expiry < node.silence now)

namespace Ledger

/-- The ledger after a node has been declared dead, which lowers the gauge of its coordinator. -/
def kill (l : Ledger) (c : CoordinatorRef) (n : NodeRef) : Ledger :=
  if (l.node n).alive then
    (l.modifyNode n fun node => { node with alive := false }).modifyCoordinator c fun k =>
      { k with metrics := k.metrics.lower .liveDatanodes }
  else l

/-- The ledger after a node has come to life, which raises the gauge of its coordinator. -/
def revive (l : Ledger) (c : CoordinatorRef) (n : NodeRef) : Ledger :=
  if (l.node n).alive then l
  else
    (l.modifyNode n fun node => { node with alive := true }).modifyCoordinator c fun k =>
      { k with metrics := k.metrics.raise .liveDatanodes }

def updateStorage (l : Ledger) (n : NodeRef) (a : Announcement) : Ledger :=
  match l.storageOf? n a.id with
  | some v => l.modifyStorage v fun storage => { storage with state := a.state }
  | none => l.announce n a

/-- The ledger after a node has announced its volumes, which sets when it was last heard of. -/
def hear (l : Ledger) (n : NodeRef) (storages : List Announcement) : Ledger :=
  let l := storages.foldl (fun l a => l.updateStorage n a) l
  l.modifyNode n fun node => node.setLastUpdate l.now

/-- The ledger after a node has announced its volumes and is alive. -/
def settle (l : Ledger) (c : CoordinatorRef) (n : NodeRef) (storages : List Announcement) : Ledger :=
  (l.hear n storages).revive c n

/-- The ledger after a new node has been entered and counted. -/
def enroll (l : Ledger) (c : CoordinatorRef) (r : Registration) : Ledger :=
  (l.enter c r).modifyCoordinator c fun k => { k with metrics := k.metrics.raise .registeredDatanodes }

def take (l : Ledger) (r : LockRef) : Ledger := l.modifyLock r fun lock => { lock with held := true }

def release (l : Ledger) (r : LockRef) : Ledger := l.modifyLock r fun lock => { lock with held := false }

def clearCache (l : Ledger) (n : NodeRef) : Ledger :=
  l.modifyNode n fun node => { node with cache := node.cache.clearAll }

def modifyStorages (l : Ledger) (vs : List StorageRef) (f : Storage → Storage) : Ledger :=
  vs.foldl (fun l v => l.modifyStorage v f) l

/-- The ledger after a known node has got its address, and its volumes have to be reported in full again. -/
def readdress (l : Ledger) (n : NodeRef) (r : Registration) : Ledger :=
  (l.modifyNode n fun node => node.readdress r).modifyStorages (l.node n).storages.values fun storage =>
    { storage with blockReports := 0 }

/-- The ledger after a known node has come back, and what it has reported before has been forgotten. -/
def welcome (l : Ledger) (c : CoordinatorRef) (n : NodeRef) (r : Registration) : Ledger :=
  ((((l.readdress n r).take (l.coordinator c).lock).modifyNode n Node.forgetReports).clearCache n).release
    (l.coordinator c).lock

/-- The ledger after a node has lost its blocks and its work, under the lock of its coordinator. -/
def strip (l : Ledger) (c : CoordinatorRef) (n : NodeRef) : Ledger :=
  ((((l.take (l.coordinator c).lock).dropBlocks (l.node n).uuid (l.blocksOn n)).modifyNode n
    Node.dropWork).clearCache n).release (l.coordinator c).lock

/-- The ledger after a node has been taken out of the registry and declared dead. -/
def dismiss (l : Ledger) (c : CoordinatorRef) (uuid : String) (n : NodeRef) : Ledger :=
  ((l.modifyCoordinator c fun k => { k with nodes := k.nodes.erase uuid }).kill c n).modifyCoordinator c fun k =>
    { k with metrics := k.metrics.lower .registeredDatanodes }

/-- The ledger after some nodes have been declared dead. -/
def killAll (l : Ledger) (c : CoordinatorRef) (ns : List NodeRef) : Ledger := ns.foldl (fun l n => l.kill c n) l

/-- The nodes of a registry that have expired, in the order of the registry. -/
def expired (l : Ledger) (c : CoordinatorRef) (now expiry : UInt64) : List NodeRef :=
  (l.coordinator c).nodes.values.filter fun n => (l.node n).expired now expiry

variable {l : Ledger} {c : CoordinatorRef} {n m : NodeRef}

theorem keepsRegistries_modifyStorages (l : Ledger) (vs : List StorageRef) (f : Storage → Storage) :
    l.KeepsRegistries (l.modifyStorages vs f) := by
  induction vs generalizing l with
  | nil => exact refl_of KeepsRegistries l
  | cons v vs ih =>
    have hone : l.KeepsRegistries (l.modifyStorage v f) := keepsRegistries_of_eq rfl rfl
    exact trans_of KeepsRegistries hone (ih _)

theorem coordinators_modifyStorages (l : Ledger) (vs : List StorageRef) (f : Storage → Storage) :
    (l.modifyStorages vs f).coordinators = l.coordinators := by
  induction vs generalizing l with
  | nil => rfl
  | cons v vs ih => exact ih (l.modifyStorage v f)

theorem keepsRegistries_readdress (l : Ledger) (n : NodeRef) (r : Registration) :
    l.KeepsRegistries (l.readdress n r) :=
  trans_of KeepsRegistries (keepsRegistries_modifyNode rfl fun _ hr => hr) (keepsRegistries_modifyStorages _ _ _)

theorem coordinator_readdress (l : Ledger) (n : NodeRef) (r : Registration) (c : CoordinatorRef) :
    (l.readdress n r).coordinator c = l.coordinator c := by
  unfold readdress coordinator
  rw [coordinators_modifyStorages]
  rfl

/-- Whoever is declared dead is dead, and nobody else changes. -/
theorem node_kill (l : Ledger) (c : CoordinatorRef) (n m : NodeRef) :
    (l.kill c n).node m = if m = n then { l.node m with alive := false } else l.node m := by
  by_cases hm : m = n
  · subst hm
    rw [if_pos rfl]
    cases halive : (l.node m).alive with
    | false =>
      unfold kill
      simp only [halive, Bool.false_eq_true, if_false]
      rw [← halive]
    | true =>
      have hlt : m.index < l.nodes.size := by
        by_contra hle
        rw [node_of_le (Nat.le_of_not_lt hle)] at halive
        cases halive
      unfold kill
      simp only [halive, if_true]
      exact node_modifyNode hlt _
  · rw [if_neg hm]
    unfold kill
    split
    · exact node_modifyNode_of_ne hm _
    · rfl

/-- Whoever comes to life is alive, and nobody else changes. -/
theorem node_revive (l : Ledger) (c : CoordinatorRef) {n : NodeRef} (hn : n.index < l.nodes.size) (m : NodeRef) :
    (l.revive c n).node m = if m = n then { l.node m with alive := true } else l.node m := by
  by_cases hm : m = n
  · subst hm
    rw [if_pos rfl]
    unfold revive
    cases halive : (l.node m).alive with
    | false =>
      simp only [Bool.false_eq_true, if_false]
      exact node_modifyNode hn _
    | true =>
      simp only [if_true]
      rw [← halive]
  · rw [if_neg hm]
    unfold revive
    split
    · rfl
    · exact node_modifyNode_of_ne hm _

theorem coordinator_kill (l : Ledger) (c k : CoordinatorRef) (n : NodeRef) : (l.kill c n).coordinator k =
    if k = c ∧ (l.node n).alive = true ∧ k.index < l.coordinators.size then
      { l.coordinator k with metrics := (l.coordinator k).metrics.lower .liveDatanodes }
    else l.coordinator k := by
  unfold kill
  cases (l.node n).alive with
  | false => simp only [Bool.false_eq_true, false_and, and_false, if_false]
  | true =>
    simp only [true_and, if_true]
    by_cases hk : k = c
    · subst hk
      by_cases hlt : k.index < l.coordinators.size
      · rw [if_pos ⟨rfl, hlt⟩]
        exact coordinator_modifyCoordinator hlt _
      · have hsize : (l.modifyNode n fun node => { node with alive := false }).coordinators.size ≤ k.index :=
          Nat.le_of_not_lt hlt
        rw [if_neg fun h => hlt h.2, coordinator_of_le (Nat.le_of_not_lt hlt), coordinator_of_le]
        exact Nat.le_trans (Nat.le_of_eq Array.size_modify) hsize
    · rw [if_neg fun h => hk h.1]
      exact coordinator_modifyCoordinator_of_ne hk _

theorem coordinator_revive (l : Ledger) {c : CoordinatorRef} (hc : c.index < l.coordinators.size)
    (k : CoordinatorRef) (n : NodeRef) : (l.revive c n).coordinator k =
    if k = c ∧ (l.node n).alive = false then
      { l.coordinator k with metrics := (l.coordinator k).metrics.raise .liveDatanodes }
    else l.coordinator k := by
  unfold revive
  cases (l.node n).alive with
  | true => simp only [Bool.true_eq_false, and_false, if_false, if_true]
  | false =>
    simp only [Bool.false_eq_true, and_true, if_false]
    by_cases hk : k = c
    · subst hk
      rw [if_pos rfl]
      exact coordinator_modifyCoordinator hc _
    · rw [if_neg hk]
      exact coordinator_modifyCoordinator_of_ne hk _

/-- Those that are declared dead are dead, and nobody else changes. -/
theorem node_killAll (l : Ledger) (c : CoordinatorRef) (ns : List NodeRef) (m : NodeRef) :
    (l.killAll c ns).node m = if m ∈ ns then { l.node m with alive := false } else l.node m := by
  induction ns generalizing l with
  | nil => rfl
  | cons n ns ih =>
    have hcons : (l.killAll c (n :: ns)).node m = ((l.kill c n).killAll c ns).node m := rfl
    rw [hcons, ih, node_kill]
    by_cases hm : m = n
    · subst hm
      rw [if_pos rfl, if_pos List.mem_cons_self]
      split
      · rfl
      · rfl
    · rw [if_neg hm]
      by_cases hmem : m ∈ ns
      · rw [if_pos hmem, if_pos (List.mem_cons_of_mem n hmem)]
      · rw [if_neg hmem, if_neg fun h => (List.mem_cons.1 h).elim hm hmem]

/-- Declaring a node dead has to do with nodes and coordinators only. -/
theorem kill_eq (l : Ledger) (c : CoordinatorRef) (n : NodeRef) :
    l.kill c n = { l with nodes := (l.kill c n).nodes, coordinators := (l.kill c n).coordinators } := by
  unfold kill
  split <;> rfl

theorem killAll_eq (l : Ledger) (c : CoordinatorRef) (ns : List NodeRef) : l.killAll c ns =
    { l with nodes := (l.killAll c ns).nodes, coordinators := (l.killAll c ns).coordinators } := by
  induction ns generalizing l with
  | nil => rfl
  | cons n ns ih =>
    have hcons : l.killAll c (n :: ns) = (l.kill c n).killAll c ns := rfl
    rw [hcons, ih, kill_eq]

theorem dismiss_eq (l : Ledger) (c : CoordinatorRef) (uuid : String) (n : NodeRef) : l.dismiss c uuid n =
    { l with nodes := (l.dismiss c uuid n).nodes, coordinators := (l.dismiss c uuid n).coordinators } := by
  unfold dismiss
  rw [kill_eq]
  rfl

theorem node_dismiss (l : Ledger) (c : CoordinatorRef) (uuid : String) (n m : NodeRef) :
    (l.dismiss c uuid n).node m = if m = n then { l.node m with alive := false } else l.node m :=
  node_kill (l.modifyCoordinator c fun k => { k with nodes := k.nodes.erase uuid }) c n m

/-- A new node is found under its uuid, and is counted. -/
theorem coordinator_enroll (hlt : c.index < l.coordinators.size) (r : Registration) : (l.enroll c r).coordinator c =
    { l.coordinator c with
      nodes := (l.coordinator c).nodes.insert r.uuid ⟨l.nodes.size⟩
      metrics := (l.coordinator c).metrics.raise .registeredDatanodes } := by
  have henter : (l.enter c r).coordinator c =
      { l.coordinator c with nodes := (l.coordinator c).nodes.insert r.uuid ⟨l.nodes.size⟩ } :=
    coordinator_modifyCoordinator (l := l.bound c r) hlt _
  have hsize : (l.enter c r).coordinators.size = l.coordinators.size := Array.size_modify
  unfold enroll
  rw [coordinator_modifyCoordinator (hsize ▸ hlt), henter]

theorem keepsRegistries_kill (l : Ledger) (c : CoordinatorRef) (n : NodeRef) : l.KeepsRegistries (l.kill c n) := by
  unfold kill
  split
  · exact trans_of KeepsRegistries (keepsRegistries_modifyNode rfl fun _ h => h)
      (keepsRegistries_metrics _ c (Metrics.lower · .liveDatanodes))
  · exact refl_of KeepsRegistries l

theorem keepsRegistries_revive (l : Ledger) (c : CoordinatorRef) (n : NodeRef) :
    l.KeepsRegistries (l.revive c n) := by
  unfold revive
  split
  · exact refl_of KeepsRegistries l
  · exact trans_of KeepsRegistries (keepsRegistries_modifyNode rfl fun _ h => h)
      (keepsRegistries_metrics _ c (Metrics.raise · .liveDatanodes))

/-- Dropping the blocks and the work of a node has nothing to do with who holds it. -/
theorem strip_eq (l : Ledger) (c : CoordinatorRef) (n : NodeRef) :
    l.strip c n = (l.strip c n).handTo l.coordinators l.pins := by
  have hrest := (relisted_dropBlocks (l.take (l.coordinator c).lock) (l.node n).uuid (l.blocksOn n)).rest
  unfold strip
  rw [hrest]
  rfl

section forget
variable {uuid : String} (h : l.Enrolled) (hn : (l.coordinator c).nodes.find? uuid = some n)
include h hn

/-- A node that is forgotten is held by who has taken it out of the registry, and the others by whom they were. -/
theorem mem_heldNodes_forget : m ∈ (l.forget c uuid n).heldNodes ↔ m ∈ l.heldNodes := by
  refine ⟨mem_heldNodes_of_forget hn, fun hm => ?_⟩
  rcases mem_heldNodes.1 hm with hm | ⟨k, hk, hm⟩
  · exact mem_heldNodes.2 (.inl (List.mem_cons_of_mem n hm))
  obtain ⟨i, hi⟩ := List.getElem?_of_mem hk
  rw [Array.getElem?_toList] at hi
  have hget : (l.forget c uuid n).coordinators[i]? =
      if c.index = i then l.coordinators[i]?.map fun k => { k with nodes := k.nodes.erase uuid }
      else l.coordinators[i]? := Array.getElem?_modify
  rw [hi] at hget
  by_cases hc : c.index = i
  · rw [if_pos hc] at hget
    have hself : l.coordinator c = k := by
      unfold coordinator
      rw [hc, hi]
      rfl
    rcases List.mem_cons.1 ((Table.values_perm_erase (h.keys c) hn).mem_iff.1 (hself ▸ hm)) with rfl | hm
    · exact mem_heldNodes.2 (.inl List.mem_cons_self)
    · refine mem_heldNodes.2 (.inr ⟨_, List.mem_of_getElem? ((Array.getElem?_toList).trans hget), ?_⟩)
      exact hself ▸ hm
  · rw [if_neg hc] at hget
    exact mem_heldNodes.2 (.inr ⟨k, List.mem_of_getElem? ((Array.getElem?_toList).trans hget), hm⟩)

theorem isLive_forget (v : StorageRef) : (l.forget c uuid n).isLive v = l.isLive v := by
  rw [Bool.eq_iff_iff, isLive_iff, isLive_iff]
  exact or_congr (exists_congr fun _ => and_congr (mem_heldNodes_forget h hn) Iff.rfl) Iff.rfl

/-- The blocks of a node are dropped alike before it is taken out of the registry and after that, as it is held
both times. -/
theorem strip_forget : (l.forget c uuid n).strip c n = (l.strip c n).forget c uuid n := by
  let coordinators := l.coordinators.modify c.index fun k => { k with nodes := k.nodes.erase uuid }
  let r := (l.coordinator c).lock
  have hlock : ((l.forget c uuid n).coordinator c).lock = r := lock_forget l c uuid n
  have hdrop : ((l.forget c uuid n).take r).dropBlocks (l.node n).uuid (l.blocksOn n) =
      ((l.take r).dropBlocks (l.node n).uuid (l.blocksOn n)).handTo coordinators (n :: l.pins) :=
    dropBlocks_handTo (l := l.take r) (isLive_forget h hn) _ _
  have hstrip : (l.forget c uuid n).strip c n = (l.strip c n).handTo coordinators (n :: l.pins) := by
    have hsame : (l.forget c uuid n).strip c n = (((((l.forget c uuid n).take r).dropBlocks (l.node n).uuid
        (l.blocksOn n)).modifyNode n Node.dropWork).clearCache n).release r := by
      unfold strip
      rw [hlock]
      rfl
    rw [hsame, hdrop]
    rfl
  rw [hstrip, strip_eq]
  rfl

omit h hn in
theorem kill_pin (l : Ledger) (c : CoordinatorRef) (n : NodeRef) : (l.pin n).kill c n = (l.kill c n).pin n := by
  have hnode : (l.pin n).node n = l.node n := rfl
  unfold kill
  rw [hnode]
  split <;> rfl

/-- Taking a node out of the registry, dropping its blocks and its work, and letting go of it comes to the same in
whatever order it is told. -/
theorem dismiss_of_forget :
    ((((l.forget c uuid n).strip c n).kill c n).modifyCoordinator c fun k =>
      { k with metrics := k.metrics.lower .registeredDatanodes }).unpin n = (l.strip c n).dismiss c uuid n := by
  have hpinned : (l.strip c n).forget c uuid n =
      ((l.strip c n).modifyCoordinator c fun k => { k with nodes := k.nodes.erase uuid }).pin n := rfl
  rw [strip_forget h hn, hpinned, kill_pin]
  unfold dismiss unpin pin
  simp only [modifyCoordinator, List.erase_cons_head]

end forget

section lookup
variable {k : CoordinatorRef} {r : Registration} {uuid uuid' : String}

/-- A new node is found under its uuid, -/
theorem find?_enroll_self (hc : c.index < l.coordinators.size) (r : Registration) :
    ((l.enroll c r).coordinator c).nodes.find? r.uuid = some ⟨l.nodes.size⟩ := by
  rw [coordinator_enroll hc]
  exact Table.find?_insert_self _ _ _

/-- and nothing else is found that was not found before. -/
theorem find?_enroll_of_ne (hne : ¬ (k = c ∧ r.uuid = uuid)) :
    ((l.enroll k r).coordinator c).nodes.find? uuid = (l.coordinator c).nodes.find? uuid := by
  have hcounted : ((l.enroll k r).coordinator c).nodes = ((l.enter k r).coordinator c).nodes :=
    coordinator_modifyCoordinator_congr Coordinator.nodes rfl c
  rw [hcounted]
  rcases coordinator_modifyCoordinator_cases (l.bound k r) k c
    fun k => { k with nodes := k.nodes.insert r.uuid ⟨l.nodes.size⟩ } with hsame | ⟨rfl, hchanged⟩
  · exact congrArg (fun k => k.nodes.find? uuid) hsame
  · refine (congrArg (fun k => k.nodes.find? uuid) hchanged).trans ?_
    exact Table.find?_insert_of_ne _ (fun h => hne ⟨rfl, h.symm⟩) _

private theorem registry_dismiss (l : Ledger) (k c : CoordinatorRef) (uuid : String) (n : NodeRef) :
    ((l.dismiss k uuid n).coordinator c).nodes =
      ((l.modifyCoordinator k fun k => { k with nodes := k.nodes.erase uuid }).coordinator c).nodes :=
  ((keepsRegistries_metrics _ k (Metrics.lower · .registeredDatanodes)).registry c).trans
    ((keepsRegistries_kill _ k n).registry c)

/-- A node that is dismissed is not found any more, -/
theorem find?_dismiss_self (hc : c.index < l.coordinators.size) (uuid : String) (n : NodeRef) :
    ((l.dismiss c uuid n).coordinator c).nodes.find? uuid = none := by
  rw [registry_dismiss, coordinator_modifyCoordinator hc]
  exact Table.find?_erase_self _ _

/-- and everything else is. -/
theorem find?_dismiss_of_ne (hne : ¬ (k = c ∧ uuid' = uuid)) :
    ((l.dismiss k uuid' n).coordinator c).nodes.find? uuid = (l.coordinator c).nodes.find? uuid := by
  rw [registry_dismiss]
  rcases coordinator_modifyCoordinator_cases l k c fun k => { k with nodes := k.nodes.erase uuid' } with
    hsame | ⟨rfl, hchanged⟩
  · exact congrArg (fun k => k.nodes.find? uuid) hsame
  · refine (congrArg (fun k => k.nodes.find? uuid) hchanged).trans ?_
    exact Table.find?_erase_of_ne _ fun h => hne ⟨rfl, h.symm⟩

/-- Whoever is found after a node has been dismissed was found before. -/
theorem find?_of_dismiss (hn : ((l.dismiss k uuid' m).coordinator c).nodes.find? uuid = some n) :
    (l.coordinator c).nodes.find? uuid = some n := by
  by_cases hne : k = c ∧ uuid' = uuid
  · obtain ⟨rfl, rfl⟩ := hne
    have hc : k.index < l.coordinators.size := by
      have hlt := lt_size_of_find? hn
      have hsize : (l.dismiss k uuid' m).coordinators.size = l.coordinators.size := by
        unfold dismiss kill
        split <;> simp only [modifyCoordinator, modifyNode, Array.size_modify]
      exact hsize ▸ hlt
    rw [find?_dismiss_self hc] at hn
    cases hn
  · rwa [find?_dismiss_of_ne hne] at hn

end lookup
end Ledger

namespace Request
variable {α : Type} {s : Service} {c : CoordinatorRef} {n : NodeRef} {uuid : String}

theorem exec_markDead (c : CoordinatorRef) (n : NodeRef) (s : Service) :
    (markDead c n).exec s = (.ok ⟨⟩, { s with ledger := s.ledger.kill c n }) := by
  unfold markDead Ledger.kill
  rw [exec_bind_ok (exec_node ..)]
  split <;> rfl

theorem exec_markAlive (c : CoordinatorRef) (n : NodeRef) (s : Service) :
    (markAlive c n).exec s = (.ok ⟨⟩, { s with ledger := s.ledger.revive c n }) := by
  unfold markAlive Ledger.revive
  rw [exec_bind_ok (exec_node ..)]
  split <;> rfl

theorem exec_updateStorage (n : NodeRef) (a : Announcement) (s : Service) :
    ∃ v journal, (updateStorage n a).exec s = (.ok v, ⟨s.ledger.updateStorage n a, journal⟩) := by
  unfold updateStorage Ledger.updateStorage
  rw [exec_bind_ok (exec_ledger _)]
  simp only
  cases s.ledger.storageOf? n a.id with
  | some v => exact ⟨v, _, rfl⟩
  | none => exact ⟨_, _, rfl⟩

theorem exec_updateStorages (n : NodeRef) (storages : List Announcement) (s : Service) :
    ∃ journal, (storages.forM fun a => do let _ ← updateStorage n a).exec s =
      (.ok ⟨⟩, ⟨storages.foldl (fun l a => l.updateStorage n a) s.ledger, journal⟩) := by
  induction storages generalizing s with
  | nil => exact ⟨s.journal, rfl⟩
  | cons a storages ih =>
    obtain ⟨v, journal, he⟩ := exec_updateStorage n a s
    obtain ⟨journal', he'⟩ := ih ⟨s.ledger.updateStorage n a, journal⟩
    refine ⟨journal', (exec_bind s _ _).trans ?_⟩
    rw [exec_bind_ok he]
    exact he'

/-- What runs under a lock, with the lock taken and given back around it. -/
theorem exec_locked (r : LockRef) (body : Guard → Request α) {a : α} {l : Ledger}
    (h : ∀ journal, ∃ journal', (body ⟨r⟩).exec ⟨s.ledger.take r, journal⟩ = (.ok a, ⟨l, journal'⟩)) :
    ∃ journal, (withLock r body).exec s = (.ok a, ⟨l.release r, journal⟩) := by
  obtain ⟨journal, he⟩ := exec_withLock s r body
  obtain ⟨journal', hbody⟩ := h journal
  exact ⟨journal', he.trans (congrArg (giveBack r) hbody)⟩

/-- A node that has been entered, or that is back, announces its volumes and is alive. -/
private theorem exec_settle (c : CoordinatorRef) (n : NodeRef) (storages : List Announcement) (s : Service) :
    ∃ journal, (do
      storages.forM fun a => do
        let _ ← updateStorage n a
      let now := (← ledger).now
      modifyNode n fun node => node.setLastUpdate now
      markAlive c n
      pure n : Request NodeRef).exec s = (.ok n, ⟨s.ledger.settle c n storages, journal⟩) := by
  obtain ⟨journal, he⟩ := exec_updateStorages n storages s
  refine ⟨journal, ?_⟩
  unfold Ledger.settle Ledger.hear
  rw [exec_bind_ok he]
  simp only
  rw [exec_bind_ok (exec_ledger _)]
  simp only
  rw [exec_bind_ok (exec_modifyNode ..)]
  simp only
  rw [exec_bind_ok (exec_markAlive ..)]
  rfl

theorem exec_register_of_none (r : Registration) (storages : List Announcement)
    (hn : (s.ledger.coordinator c).nodes.find? r.uuid = none) :
    ∃ journal, (register c r storages).exec s =
      (.ok ⟨s.ledger.nodes.size⟩, ⟨(s.ledger.enroll c r).settle c ⟨s.ledger.nodes.size⟩ storages, journal⟩) := by
  have henroll : (enroll c r).exec s = (.ok ⟨s.ledger.nodes.size⟩,
      ⟨s.ledger.enroll c r, .registered r.address r.uuid :: s.journal⟩) := exec_enroll c r s
  obtain ⟨journal, he⟩ := exec_settle c ⟨s.ledger.nodes.size⟩ storages
    ⟨s.ledger.enroll c r, .registered r.address r.uuid :: s.journal⟩
  refine ⟨journal, ?_⟩
  unfold register
  rw [exec_bind_ok (exec_registered? ..), hn]
  simp only
  rw [exec_bind_ok henroll]
  exact he

/-- The lists of a node that is tied to a lock are emptied under that lock. -/
private theorem exec_clearCache_of_tied {g : Guard} (h : (s.ledger.node n).lock = some g.lock) :
    (clearCache g n).exec s = (.ok ⟨⟩, { s with ledger := s.ledger.clearCache n }) := by
  have hclear : (s.ledger.modifyNode n fun node => { node with cache := (s.ledger.node n).cache.clearAll }) =
      s.ledger.clearCache n := Ledger.modifyNode_congr rfl
  unfold clearCache cache
  rw [exec_bind_ok (exec_check_of_tied h), ← hclear]
  exact exec_attempt_ok s rfl

theorem exec_welcome (h : s.ledger.Enrolled) {r : Registration}
    (hn : (s.ledger.coordinator c).nodes.find? r.uuid = some n) :
    ∃ journal, ( readmit c n r).exec s = (.ok ⟨⟩, ⟨s.ledger.welcome c n r, journal⟩) := by
  have hlock : ((s.ledger.readdress n r).node n).lock = some (s.ledger.coordinator c).lock :=
    (Ledger.keepsRegistries_readdress s.ledger n r).tied n _ (h.tied c r.uuid n hn)
  have hupdate : ∀ journal, (updateRegistration n r).exec ⟨s.ledger, journal⟩ =
      (.ok ⟨⟩, ⟨s.ledger.readdress n r, journal⟩) := by
    intro journal
    have hvolumes : ((s.ledger.modifyNode n fun node => node.readdress r).node n).storages =
        (s.ledger.node n).storages := Ledger.node_modifyNode_congr Node.storages rfl n
    unfold updateRegistration modifyStorages Ledger.readdress
    rw [exec_bind_ok (exec_node ..)]
    simp only [h.uuid c r.uuid n hn, ne_eq, not_true_eq_false, if_false]
    rw [exec_bind_ok (exec_modifyNode ..)]
    simp only
    rw [exec_modifyLedger, hvolumes]
    rfl
  have hreset : ∀ journal, ∃ journal', (resetBlocks ⟨(s.ledger.coordinator c).lock⟩ n).exec
      ⟨(s.ledger.readdress n r).take (s.ledger.coordinator c).lock, journal⟩ = (.ok ⟨⟩,
        ⟨(((s.ledger.readdress n r).take (s.ledger.coordinator c).lock).modifyNode n
          Node.forgetReports).clearCache n, journal'⟩) := by
    refine fun journal => ⟨journal, ?_⟩
    unfold resetBlocks
    rw [exec_bind_ok (exec_modifyNode ..)]
    refine exec_clearCache_of_tied (g := ⟨(s.ledger.coordinator c).lock⟩) ?_
    exact (Ledger.node_modifyNode_congr (l := (s.ledger.readdress n r).take _) Node.lock rfl n).trans hlock
  obtain ⟨journal, he⟩ :=
    exec_locked (s := ⟨s.ledger.readdress n r, .registeredAgain r.address r.uuid :: s.journal⟩)
      (s.ledger.coordinator c).lock (fun g => resetBlocks g n) hreset
  refine ⟨journal, ?_⟩
  unfold readmit
  rw [exec_bind_ok (exec_record ..)]
  rw [exec_bind_ok (hupdate _)]
  rw [exec_bind_ok (exec_coordinator ..)]
  simp only [Ledger.coordinator_readdress]
  exact he

theorem exec_register_of_some (h : s.ledger.Enrolled) {r : Registration} (storages : List Announcement)
    (hn : (s.ledger.coordinator c).nodes.find? r.uuid = some n) :
    ∃ journal, (register c r storages).exec s =
      (.ok n, ⟨(s.ledger.welcome c n r).settle c n storages, journal⟩) := by
  obtain ⟨journal, he⟩ := exec_welcome h hn
  obtain ⟨journal', he'⟩ := exec_settle c n storages ⟨s.ledger.welcome c n r, journal⟩
  refine ⟨journal', ?_⟩
  unfold register
  rw [exec_bind_ok (exec_registered? ..), hn]
  simp only
  rw [exec_bind_ok he]
  exact he'

/-- Blocks and work of a node are dropped under the lock that it is tied to. -/
private theorem exec_purge (hl : s.ledger.Coherent)
    (h : (s.ledger.node n).lock = some (s.ledger.coordinator c).lock) :
    ∃ count journal, (purge c n).exec s = (.ok count, ⟨s.ledger.strip c n, journal⟩) := by
  let r := (s.ledger.coordinator c).lock
  have hl₁ : (s.ledger.take r).Coherent := (Ledger.alike_modifyLock r _).quiet.coherent hl
  have hlock : ((s.ledger.take r).node n).lock = some r := h
  obtain ⟨count, hcount⟩ : ∃ count, ∀ journal, (removeAllBlocks ⟨r⟩ n).exec ⟨s.ledger.take r, journal⟩ =
      (.ok count, ⟨(s.ledger.take r).dropBlocks (s.ledger.node n).uuid (s.ledger.blocksOn n), journal⟩) :=
    exec_removeAllBlocks_of_tied hl₁ hlock
  have hclear : ∀ journal, (clearQueues ⟨r⟩ n).exec
      ⟨(s.ledger.take r).dropBlocks (s.ledger.node n).uuid (s.ledger.blocksOn n), journal⟩ = (.ok ⟨⟩,
        ⟨(((s.ledger.take r).dropBlocks (s.ledger.node n).uuid (s.ledger.blocksOn n)).modifyNode n
          Node.dropWork).clearCache n, journal⟩) := by
    intro journal
    unfold clearQueues
    rw [exec_bind_ok (exec_modifyNode ..)]
    refine exec_clearCache_of_tied (g := ⟨r⟩) ?_
    refine (Ledger.node_modifyNode_congr Node.lock rfl n).trans ?_
    rw [(Ledger.relisted_dropBlocks (s.ledger.take r) _ _).node n]
    exact hlock
  unfold purge
  rw [exec_bind_ok (exec_coordinator ..)]
  refine ⟨count, exec_locked _ _ fun journal => ⟨journal, ?_⟩⟩
  rw [exec_bind_ok (hcount _)]
  rw [exec_bind_ok (hclear _)]
  rfl

theorem exec_removeNode_of_some (hl : s.ledger.Coherent) (h : s.ledger.Enrolled)
    (hn : (s.ledger.coordinator c).nodes.find? uuid = some n) :
    ∃ journal, (removeNode c uuid).exec s =
      (.ok (some n), ⟨(s.ledger.strip c n).dismiss c uuid n, journal⟩) := by
  have hforget : s.ledger.Quiet (s.ledger.forget c uuid n) := Frame.forget hn
  have hlock : ((s.ledger.forget c uuid n).node n).lock = some ((s.ledger.forget c uuid n).coordinator c).lock := by
    rw [Ledger.lock_forget]
    exact h.tied c uuid n hn
  obtain ⟨count, journal, he⟩ :=
    exec_purge (s := ⟨s.ledger.forget c uuid n, s.journal⟩) (hforget.coherent hl) hlock
  rw [exec_removeNode_of_registered hn, exec_bind_ok he, exec_bind_ok (exec_markDead ..), ← Ledger.dismiss_of_forget h hn]
  exact ⟨_, rfl⟩

section check
variable {expiry : UInt64}

/-- A node that is checked is killed and named if it has expired, and left alone otherwise. -/
theorem exec_checkNode (now : UInt64) (hexpiry : (s.ledger.coordinator c).limits.expiry = .ok expiry)
    (dead : List String) (n : NodeRef) : ∃ journal, (checkNode c now dead n).exec s =
      if (s.ledger.node n).expired now expiry then
        (.ok (dead ++ [(s.ledger.node n).uuid]), ⟨s.ledger.kill c n, journal⟩)
      else (.ok dead, s) := by
  unfold checkNode Node.expired
  rw [exec_bind_ok (exec_node ..)]
  cases halive : (s.ledger.node n).alive with
  | false => exact ⟨s.journal, rfl⟩
  | true =>
    have hlift : (liftM (Except.ok expiry : Except Fault UInt64) : Request UInt64).exec s = (.ok expiry, s) := rfl
    simp only [Bool.not_true, Bool.false_eq_true, if_false, Bool.true_and, decide_eq_true_eq]
    rw [exec_bind_ok (exec_coordinator ..)]
    rw [hexpiry, exec_bind_ok hlift]
    by_cases hlt : expiry < (s.ledger.node n).silence now
    · rw [if_neg (UInt64.not_le.2 hlt), exec_bind_ok (exec_record ..)]
      simp only [hlt, if_true]
      rw [exec_bind_ok (exec_markDead ..)]
      exact ⟨_, rfl⟩
    · rw [if_pos (UInt64.not_lt.1 hlt)]
      simp only [hlt, if_false]
      exact ⟨s.journal, rfl⟩

/-- Nodes that are checked one after the other are judged by what they were at first. -/
private theorem exec_checkNodes (now : UInt64) (hexpiry : (s.ledger.coordinator c).limits.expiry = .ok expiry)
    (ns : List NodeRef) (hnd : ns.Nodup) (dead : List String) : ∃ journal, (ns.foldlM (checkNode c now) dead).exec s =
      let killed := ns.filter fun n => (s.ledger.node n).expired now expiry
      (.ok (dead ++ killed.map fun n => (s.ledger.node n).uuid),
        ⟨s.ledger.killAll c killed, journal⟩) := by
  induction ns generalizing s dead with
  | nil => exact ⟨s.journal, by simp only [List.filter_nil, List.map_nil, List.append_nil]; rfl⟩
  | cons n ns ih =>
    obtain ⟨hn, hnd⟩ := List.nodup_cons.1 hnd
    obtain ⟨journal, he⟩ := exec_checkNode now hexpiry dead n
    rw [List.foldlM_cons, exec_bind, he]
    by_cases hexpired : (s.ledger.node n).expired now expiry = true
    · have hexpiry' : ((s.ledger.kill c n).coordinator c).limits.expiry = .ok expiry := by
        have hlimits : ((s.ledger.kill c n).coordinator c).limits = (s.ledger.coordinator c).limits := by
          rw [Ledger.coordinator_kill]
          split
          · rfl
          · rfl
        rw [hlimits]
        exact hexpiry
      obtain ⟨journal', he'⟩ := ih (s := ⟨s.ledger.kill c n, journal⟩) hexpiry' hnd
        (dead ++ [(s.ledger.node n).uuid])
      have hsame : ∀ m ∈ ns, (s.ledger.kill c n).node m = s.ledger.node m :=
        fun m hm => (Ledger.node_kill s.ledger c n m).trans (if_neg fun h : m = n => hn (h ▸ hm))
      have hfilter : (ns.filter fun m => ((s.ledger.kill c n).node m).expired now expiry) =
          ns.filter fun m => (s.ledger.node m).expired now expiry :=
        List.filter_congr fun m hm => by rw [hsame m hm]
      have hmap : ∀ p : NodeRef → Bool, ((ns.filter p).map fun m => ((s.ledger.kill c n).node m).uuid) =
          (ns.filter p).map fun m => (s.ledger.node m).uuid :=
        fun p => List.map_congr_left fun m hm => by rw [hsame m (List.mem_of_mem_filter hm)]
      simp only [hfilter, hmap] at he'
      refine ⟨journal', ?_⟩
      simp only [hexpired, if_true, List.filter_cons, List.map_cons, he', List.append_assoc,
        List.singleton_append]
      rfl
    · obtain ⟨journal', he'⟩ := ih hexpiry hnd dead
      refine ⟨journal', ?_⟩
      simp only [hexpired, List.filter_cons]
      exact he'

/-- A check kills and names the nodes that have expired, in the order of the registry. -/
theorem exec_checkHeartbeats (h : s.ledger.Enrolled)
    (hexpiry : (s.ledger.coordinator c).limits.expiry = .ok expiry) (now : UInt64) :
    ∃ journal, (checkHeartbeats c now).exec s =
      (.ok ((s.ledger.expired c now expiry).map fun n => (s.ledger.node n).uuid),
        ⟨s.ledger.killAll c (s.ledger.expired c now expiry), journal⟩) := by
  obtain ⟨journal, he⟩ := exec_checkNodes now hexpiry (s.ledger.coordinator c).nodes.values
    (h.values_nodup c) []
  refine ⟨journal, ?_⟩
  unfold checkHeartbeats
  rw [exec_bind_ok (exec_coordinator ..)]
  rw [he]
  rfl

/-- A check that cannot work out the expiry interval fails at a live node, and passes over the others. -/
private theorem exec_checkNode_of_error {e : Fault} (hexpiry : (s.ledger.coordinator c).limits.expiry = .error e)
    (now : UInt64) (dead : List String) (n : NodeRef) : (checkNode c now dead n).exec s =
      (if (s.ledger.node n).alive then .error e else .ok dead, s) := by
  unfold checkNode
  rw [exec_bind_ok (exec_node ..)]
  cases (s.ledger.node n).alive with
  | false => rfl
  | true =>
    simp only [Bool.not_true, Bool.false_eq_true, if_false, if_true]
    rw [exec_bind_ok (exec_coordinator ..), hexpiry]
    rfl

private theorem exec_checkNodes_of_error {e : Fault} (hexpiry : (s.ledger.coordinator c).limits.expiry = .error e)
    (now : UInt64) (ns : List NodeRef) (dead : List String) : (ns.foldlM (checkNode c now) dead).exec s =
      (if ns.any fun n => (s.ledger.node n).alive then .error e else .ok dead, s) := by
  induction ns generalizing dead with
  | nil => rfl
  | cons n ns ih =>
    rw [List.foldlM_cons, exec_bind, exec_checkNode_of_error hexpiry, List.any_cons]
    cases (s.ledger.node n).alive with
    | false => exact ih dead
    | true => rfl

/-- Such a check changes nothing, and fails if there is a live node. -/
theorem exec_checkHeartbeats_of_error {e : Fault} (hexpiry : (s.ledger.coordinator c).limits.expiry = .error e)
    (now : UInt64) : (checkHeartbeats c now).exec s =
      (if (s.ledger.coordinator c).nodes.values.any fun n => (s.ledger.node n).alive then .error e else .ok [], s) := by
  unfold checkHeartbeats
  rw [exec_bind_ok (exec_coordinator ..)]
  exact exec_checkNodes_of_error hexpiry now _ []

end check
end Request

namespace Step
variable {s : Service} {c : CoordinatorRef} {n : NodeRef} {uuid : String}

theorem ledger_register_of_none {r : Registration} (hn : (s.ledger.coordinator c).nodes.find? r.uuid = none)
    (storages : List Announcement) : ((register c r storages).after s).ledger =
      (s.ledger.enroll c r).settle c ⟨s.ledger.nodes.size⟩ storages := by
  obtain ⟨journal, he⟩ := Request.exec_register_of_none r storages hn
  exact congrArg (fun x => x.2.ledger) he

theorem ledger_register_of_some (h : s.ledger.Enrolled) {r : Registration}
    (hn : (s.ledger.coordinator c).nodes.find? r.uuid = some n) (storages : List Announcement) :
    ((register c r storages).after s).ledger = (s.ledger.welcome c n r).settle c n storages := by
  obtain ⟨journal, he⟩ := Request.exec_register_of_some h storages hn
  exact congrArg (fun x => x.2.ledger) he

theorem after_removeNode_of_none (hn : (s.ledger.coordinator c).nodes.find? uuid = none) :
    (removeNode c uuid).after s = s :=
  congrArg Prod.snd (Request.exec_removeNode_of_none hn)

theorem ledger_removeNode_of_some (hl : s.ledger.Coherent) (h : s.ledger.Enrolled)
    (hn : (s.ledger.coordinator c).nodes.find? uuid = some n) :
    ((removeNode c uuid).after s).ledger = (s.ledger.strip c n).dismiss c uuid n := by
  obtain ⟨journal, he⟩ := Request.exec_removeNode_of_some hl h hn
  exact congrArg (fun x => x.2.ledger) he

theorem after_checkHeartbeats_of_error {e : Fault} (hexpiry : (s.ledger.coordinator c).limits.expiry = .error e)
    (now : UInt64) : (checkHeartbeats c now).after s = s :=
  congrArg Prod.snd (Request.exec_checkHeartbeats_of_error hexpiry now)

theorem ledger_checkHeartbeats (h : s.ledger.Enrolled) {expiry : UInt64}
    (hexpiry : (s.ledger.coordinator c).limits.expiry = .ok expiry) (now : UInt64) :
    ((checkHeartbeats c now).after s).ledger = s.ledger.killAll c (s.ledger.expired c now expiry) := by
  obtain ⟨journal, he⟩ := Request.exec_checkHeartbeats h hexpiry now
  exact congrArg (fun x => x.2.ledger) he

end Step

namespace Ledger
variable {R : Ledger → Ledger → Prop} {l : Ledger} {c : CoordinatorRef} {n : NodeRef}

theorem rel_updateStorages [Request.Discreet R] (l : Ledger) (n : NodeRef) (storages : List Announcement) :
    R l (storages.foldl (fun l a => l.updateStorage n a) l) := by
  induction storages generalizing l with
  | nil => exact refl_of R l
  | cons a storages ih =>
    have hone : R l (l.updateStorage n a) := by
      obtain ⟨v, journal, he⟩ := Request.exec_updateStorage n a ⟨l, []⟩
      have hrel : R l _ := Request.idle_updateStorage n a ⟨l, []⟩
      rwa [he] at hrel
    exact trans_of R hone (ih _)

theorem rel_hear [Request.Discreet R] (hhear : Request.AllowsHearing R n) (l : Ledger) (storages : List Announcement) :
    R l (l.hear n storages) :=
  trans_of R (rel_updateStorages l n storages) (hhear (Node.idle_of_eq rfl rfl rfl rfl rfl) rfl)

theorem rel_welcome [Request.Composed R] (h : l.Enrolled) {r : Registration}
    (hn : (l.coordinator c).nodes.find? r.uuid = some n) : R l (l.welcome c n r) := by
  obtain ⟨journal, he⟩ := Request.exec_welcome (s := ⟨l, []⟩) h hn
  have hrel : R l _ := Request.idle_registerAgain c n r ⟨l, []⟩
  rwa [he] at hrel

theorem rel_strip [Request.Slim R] (hl : l.Coherent) (h : l.Enrolled) {uuid : String}
    (hn : (l.coordinator c).nodes.find? uuid = some n) : R l (l.strip c n) := by
  obtain ⟨count, journal, he⟩ := Request.exec_purge (s := ⟨l, []⟩) hl (h.tied c uuid n hn)
  have hrel : R l _ :=
    Request.respects_purge (Request.rel_detach Request.Slim.rewrite) c n (Request.Slim.calmWork n) ⟨l, []⟩
  rwa [he] at hrel

end Ledger
end DatanodeLedger
