import DatanodeLedger.Proofs.Membership.Emptying
import DatanodeLedger.Proofs.Membership.OnePerNode

/-! What an operation in the name of one node can touch: the node, its volumes, the records that it makes, and what
the coordinator and the blocks keep about them. -/
namespace DatanodeLedger.Ledger
variable {l₀ l : Ledger} {c : CoordinatorRef} {uuid : String} {n : NodeRef} {v : StorageRef} {b : BlockRef}

/-- The node that is registered under the uuid, and whatever nodes are still to be made. -/
def Owns (l : Ledger) (c : CoordinatorRef) (uuid : String) (n : NodeRef) : Prop :=
  (l.coordinator c).nodes.find? uuid = some n ∨ l.nodes.size ≤ n.index

/-- The volumes of that node, and whatever volumes are still to be made. -/
def Has (l : Ledger) (c : CoordinatorRef) (uuid : String) (v : StorageRef) : Prop :=
  (∃ n, (l.coordinator c).nodes.find? uuid = some n ∧ v ∈ (l.node n).storages.values) ∨ l.storages.size ≤ v.index

/-- What has changed since a ledger has changed in the name of one node. Counters and gauges of its coordinator may
have changed, and back-references of blocks. No transfer has been queued. -/
structure Within (c : CoordinatorRef) (uuid : String) (l₀ l : Ledger) : Prop where
  nodes : l₀.nodes.size ≤ l.nodes.size
  storages : l₀.storages.size ≤ l.storages.size
  blocks : l.blocks.size = l₀.blocks.size
  coordinators : l.coordinators.size = l₀.coordinators.size
  node : ∀ n, ¬ l₀.Owns c uuid n → l.node n = l₀.node n
  transfers : ∀ n, (l.node n).transfers.items ⊆ (l₀.node n).transfers.items
  storage : ∀ v, ¬ l₀.Has c uuid v → l.storage v = l₀.storage v
  block : ∀ b, l.block b = { l₀.block b with holders := (l.block b).holders }
  registry : ∀ id, id ≠ uuid → (l.coordinator c).nodes.find? id = (l₀.coordinator c).nodes.find? id
  limits : (l.coordinator c).limits = (l₀.coordinator c).limits
  lock : (l.coordinator c).lock = (l₀.coordinator c).lock
  started : (l.coordinator c).metrics.started = (l₀.coordinator c).metrics.started
  others : ∀ k, k ≠ c → l.coordinator k = l₀.coordinator k
  rest : l.clock = l₀.clock ∧ l.openBlocks = l₀.openBlocks ∧ l.cursors = l₀.cursors ∧ l.pins = l₀.pins

namespace Within

theorem refl (c : CoordinatorRef) (uuid : String) (l : Ledger) : Within c uuid l l :=
  ⟨Nat.le_refl _, Nat.le_refl _, rfl, rfl, fun _ _ => rfl, fun _ => List.Subset.refl _, fun _ _ => rfl, fun _ => rfl,
    fun _ _ => rfl, rfl, rfl, rfl, fun _ _ => rfl, rfl, rfl, rfl, rfl⟩

variable (h : Within c uuid l₀ l)
include h

theorem modifyNode (hn : l₀.Owns c uuid n) {g : Node → Node}
    (hwork : (g (l.node n)).transfers.items ⊆ (l.node n).transfers.items) : Within c uuid l₀ (l.modifyNode n g) :=
  { h with
    nodes := Nat.le_trans h.nodes (Nat.le_of_eq Array.size_modify.symm)
    node := fun m hm => by
      have hmn : m ≠ n := by
        rintro rfl
        exact hm hn
      rw [node_modifyNode_of_ne hmn, h.node m hm]
    transfers := fun m => by
      rcases node_modifyNode_cases l n m g with hsame | ⟨rfl, hchanged⟩
      · rw [hsame]
        exact h.transfers m
      · rw [hchanged]
        exact List.Subset.trans hwork (h.transfers m) }

theorem modifyStorage (hv : l₀.Has c uuid v) (g : Storage → Storage) : Within c uuid l₀ (l.modifyStorage v g) :=
  { h with
    storages := Nat.le_trans h.storages (Nat.le_of_eq Array.size_modify.symm)
    storage := fun w hw => by
      have hwv : w ≠ v := by
        rintro rfl
        exact hw hv
      rw [storage_modifyStorage_of_ne hwv, h.storage w hw] }

theorem modifyLock (r : LockRef) (g : NamespaceLock → NamespaceLock) : Within c uuid l₀ (l.modifyLock r g) :=
  { h with }

theorem modifyHolders (b : BlockRef) (g : List StorageRef → List StorageRef) :
    Within c uuid l₀ (l.modifyBlock b fun record => { record with holders := g record.holders }) := by
  have hdata := block_modifyBlock_congr (l := l) (b := b)
    (f := fun record => { record with holders := g record.holders })
    (fun record => (record.block, record.replication)) rfl
  refine { h with blocks := Array.size_modify.trans h.blocks, block := fun d => ?_ }
  have hd := (hdata d).trans (congrArg (fun record => (record.block, record.replication)) (h.block d))
  obtain ⟨hblock, hreplication⟩ := Prod.mk.inj hd
  cases hrecord : (l.modifyBlock b fun record => { record with holders := g record.holders }).block d
  rw [hrecord] at hblock hreplication
  simp only at hblock hreplication
  rw [hblock, hreplication]

theorem addNode {node : Node} (hnode : node.transfers = {}) : Within c uuid l₀ (l.addNode node).2 :=
  { h with
    nodes := by
      have hsize := size_addNode l node
      have hnodes := h.nodes
      omega
    node := fun m hm => by
      rcases node_addNode_cases l node m with hsame | ⟨hnew, -⟩
      · exact hsame.trans (h.node m hm)
      · exact (hm (.inr (hnew ▸ h.nodes))).elim
    transfers := fun m => by
      rcases node_addNode_cases l node m with hsame | ⟨-, hself⟩
      · rw [hsame]
        exact h.transfers m
      · rw [hself, hnode]
        exact List.nil_subset _ }

theorem addStorage (s : Storage) : Within c uuid l₀ (l.addStorage s).2 :=
  { h with
    storages := by
      have hsize : (l.addStorage s).2.storages.size = l.storages.size + 1 := Array.size_push s
      have hstorages := h.storages
      omega
    storage := fun w hw => by
      refine Eq.trans ?_ (h.storage w hw)
      have hne : w.index ≠ l.storages.size := fun he => hw (.inr (he ▸ h.storages))
      unfold Ledger.storage Ledger.addStorage
      rw [Array.getElem?_push, if_neg hne] }

theorem modifyCoordinator {g : Coordinator → Coordinator} (hlimits : ∀ k, (g k).limits = k.limits)
    (hlock : ∀ k, (g k).lock = k.lock) (hstarted : ∀ k, (g k).metrics.started = k.metrics.started)
    (hregistry : ∀ k id, id ≠ uuid → (g k).nodes.find? id = k.nodes.find? id) :
    Within c uuid l₀ (l.modifyCoordinator c g) :=
  { h with
    coordinators := Array.size_modify.trans h.coordinators
    registry := fun id hid =>
      (coordinator_modifyCoordinator_congr (fun k => k.nodes.find? id) (hregistry _ id hid) c).trans (h.registry id hid)
    limits := (coordinator_modifyCoordinator_congr Coordinator.limits (hlimits _) c).trans h.limits
    lock := (coordinator_modifyCoordinator_congr Coordinator.lock (hlock _) c).trans h.lock
    started := (coordinator_modifyCoordinator_congr (fun k => k.metrics.started) (hstarted _) c).trans h.started
    others := fun k hk => (coordinator_modifyCoordinator_of_ne hk g).trans (h.others k hk) }

end Within

/-- The volumes with a uuid that list anything are among some volumes that are there, and no block is on two of
them. -/
structure Sole (l : Ledger) (uuid : String) (us : List StorageRef) : Prop where
  coherent : l.Coherent
  houses : l.Houses uuid us
  onePerNode : l.OnePerNode

namespace Sole
variable {us : List StorageRef} (h : l.Sole uuid us)
include h

/-- Which of the volumes holds a block can be told from their lists. -/
theorem holderOn?_eq_some_iff : l.holderOn? b uuid = some v ↔ v ∈ us ∧ b ∈ l.listed v := by
  refine ⟨fun hv => ⟨h.houses.mem_of_holderOn? h.coherent hv, (h.coherent.of_holderOn? hv).1⟩, fun ⟨hv, hb⟩ => ?_⟩
  have hlive := h.houses.live v hv
  have howner := h.houses.owner v hv
  cases hw : l.holderOn? b uuid with
  | none => exact (h.coherent.of_holderOn?_eq_none hw hlive howner hb).elim
  | some w =>
    obtain ⟨hbw, hwlive, hwowner⟩ := h.coherent.of_holderOn? hw
    rw [h.onePerNode b w v hwlive hlive (hwowner.trans howner.symm) hbw hb]

theorem dropBlock (b : BlockRef) : (l.dropBlock uuid b).Sole uuid us where
  coherent := h.coherent.coherent_dropBlock uuid b
  houses := h.houses.dropBlock h.coherent b
  onePerNode := by
    cases hv : l.holderOn? b uuid with
    | none =>
      rw [dropBlock_of_none hv]
      exact h.onePerNode
    | some v => exact (h.coherent.dropBlock hv).1.thins.onePerNode h.coherent h.onePerNode

/-- Where a block refers back to one of the volumes, that volume has its id. -/
theorem contains_of_refersTo (hv : v ∈ us) (hb : l.refersTo b v = true) :
    (l.storage v).blocks.contains (l.block b).block.id = true := by
  have hlisted := (h.coherent.mirror v b (h.houses.live v hv)).2 (List.contains_iff_mem.1 hb)
  exact (h.coherent.contains_iff v b).2 (occupied_of_mem hlisted)

end Sole

end DatanodeLedger.Ledger
