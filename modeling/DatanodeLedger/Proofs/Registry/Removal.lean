import DatanodeLedger.Proofs.Registry.Liveness

/-! Removing a node. Nothing of it is left behind, nothing else is touched, and a node that registers under its
uuid later on is a new one. -/
namespace DatanodeLedger

/-- No work waits for the node, and nothing is in its cache lists. -/
structure Node.Spent (node : Node) : Prop where
  transfers : node.transfers.items = []
  recoveries : node.recoveries.items = []
  invalidations : node.invalidations.pending = []
  unlisted : ∀ id, node.cache.listOf? id = .ok none
  cache : ∀ stage, (node.cache.length stage).isOk = true → node.cache.blocks stage = .ok []

namespace CacheLists
variable (lists : CacheLists)

theorem listOf?_clearAll (id : UInt64) : lists.clearAll.listOf? id = .ok none := rfl

/-- Clearing makes no list and unmakes none. -/
theorem isOk_length_clearAll (stage : CacheStage) :
    (lists.clearAll.length stage).isOk = (lists.length stage).isOk := by
  have hmap : (lists.slab.lists.map fun _ => ({} : Slab.Ends))[stage.index]? =
      lists.slab.lists[stage.index]?.map fun _ => {} := Array.getElem?_map
  unfold length clearAll Slab.length Slab.ends Slab.clear
  rw [hmap]
  cases lists.slab.lists[stage.index]? <;> rfl

theorem blocks_clearAll {stage : CacheStage} (h : (lists.length stage).isOk = true) :
    lists.clearAll.blocks stage = .ok [] := by
  have hmap : (lists.slab.lists.map fun _ => ({} : Slab.Ends))[stage.index]? =
      lists.slab.lists[stage.index]?.map fun _ => {} := Array.getElem?_map
  unfold length Slab.length Slab.ends at h
  unfold blocks clearAll Slab.entries Slab.head Slab.ends Slab.clear
  rw [hmap]
  cases hends : lists.slab.lists[stage.index]? with
  | none =>
    rw [hends] at h
    cases h
  | some ends => rfl

end CacheLists

/-- A node whose work has been dropped and whose lists have been emptied is spent. -/
theorem Node.spent_dropWork (node : Node) : { node.dropWork with cache := node.cache.clearAll }.Spent where
  transfers := rfl
  recoveries := rfl
  invalidations := rfl
  unlisted := node.cache.listOf?_clearAll
  cache stage h := node.cache.blocks_clearAll ((node.cache.isOk_length_clearAll stage).symm.trans h)

namespace Ledger
variable {l l' : Ledger} {c k : CoordinatorRef} {uuid : String} {m n : NodeRef} {v : StorageRef} {b : BlockRef}

/-- A node is spent, and none of its volumes lists a block. -/
structure Bare (l : Ledger) (n : NodeRef) : Prop where
  spent : (l.node n).Spent
  lists : ∀ v ∈ (l.node n).storages.values, (l.storage v).blockRefs = .ok []

/-- What removing a node comes to. Of the node nothing is left: no block on its volumes, no back-reference to
them, no work, no cached block, no life, no entry. All other nodes and volumes are the same records, and blocks
keep their back-references to them. -/
structure Removed (c : CoordinatorRef) (uuid : String) (n : NodeRef) (l l' : Ledger) : Prop where
  bare : l'.Bare n
  unreferred : ∀ b, ∀ v ∈ (l'.node n).storages.values, v ∉ (l'.block b).holders
  dead : (l'.node n).alive = false
  gone : (l'.coordinator c).nodes.find? uuid = none
  node : l'.node n = { (l.node n).dropWork with cache := (l.node n).cache.clearAll, alive := false }
  stages : ∀ stage, ((l'.node n).cache.length stage).isOk = ((l.node n).cache.length stage).isOk
  nodes : ∀ m, m ≠ n → l'.node m = l.node m
  apart : ∀ m, m ≠ n → ∀ v ∈ (l.node m).storages.values, l'.storage v = l.storage v
  volumes : ∀ v, v ∉ (l.node n).storages.values → l'.storage v = l.storage v
  block : ∀ b, l'.block b = { l.block b with holders := (l'.block b).holders }
  holders : ∀ b, (l'.block b).holders.Perm
    ((l.block b).holders.filter fun v => decide (v ∉ (l.node n).storages.values))

section strip

private theorem node_shed_self (hn : n.index < l.nodes.size) :
    ((l.modifyNode n Node.dropWork).clearCache n).node n =
      { (l.node n).dropWork with cache := (l.node n).cache.clearAll } := by
  have hsize : n.index < (l.modifyNode n Node.dropWork).nodes.size := by
    rw [modifyNode, Array.size_modify]
    exact hn
  unfold clearCache
  rw [node_modifyNode hsize, node_modifyNode hn]
  rfl

private theorem node_shed_of_ne (hm : m ≠ n) :
    ((l.modifyNode n Node.dropWork).clearCache n).node m = l.node m := by
  unfold clearCache
  rw [node_modifyNode_of_ne hm, node_modifyNode_of_ne hm]

theorem node_release (l : Ledger) (r : LockRef) (n : NodeRef) : (l.release r).node n = l.node n := rfl

theorem node_strip_self (hn : n.index < l.nodes.size) :
    (l.strip c n).node n = { (l.node n).dropWork with cache := (l.node n).cache.clearAll } := by
  have hdrained := relisted_dropBlocks (l.take (l.coordinator c).lock) (l.node n).uuid (l.blocksOn n)
  unfold strip
  rw [node_release, node_shed_self (hdrained.nodes ▸ hn), hdrained.node n]
  rfl

theorem node_strip_of_ne (hm : m ≠ n) : (l.strip c n).node m = l.node m := by
  have hdrained := relisted_dropBlocks (l.take (l.coordinator c).lock) (l.node n).uuid (l.blocksOn n)
  unfold strip
  rw [node_release, node_shed_of_ne hm, hdrained.node m]
  rfl

theorem storage_dismiss (l : Ledger) (c : CoordinatorRef) (uuid : String) (n : NodeRef) (v : StorageRef) :
    (l.dismiss c uuid n).storage v = l.storage v := by
  rw [dismiss_eq]
  rfl

theorem block_dismiss (l : Ledger) (c : CoordinatorRef) (uuid : String) (n : NodeRef) (b : BlockRef) :
    (l.dismiss c uuid n).block b = l.block b := by
  rw [dismiss_eq]
  rfl

private theorem storage_shed (l : Ledger) (n : NodeRef) (r : LockRef) (v : StorageRef) :
    (((l.modifyNode n Node.dropWork).clearCache n).release r).storage v = l.storage v := rfl

private theorem block_shed (l : Ledger) (n : NodeRef) (r : LockRef) (b : BlockRef) :
    (((l.modifyNode n Node.dropWork).clearCache n).release r).block b = l.block b := rfl

/-- The volumes of a node that is stripped, and the blocks, are as if only its blocks had been dropped. -/
theorem storage_strip (l : Ledger) (c : CoordinatorRef) (n : NodeRef) (v : StorageRef) : (l.strip c n).storage v =
    ((l.take (l.coordinator c).lock).dropBlocks (l.node n).uuid (l.blocksOn n)).storage v :=
  storage_shed _ n _ v

theorem block_strip (l : Ledger) (c : CoordinatorRef) (n : NodeRef) (b : BlockRef) : (l.strip c n).block b =
    ((l.take (l.coordinator c).lock).dropBlocks (l.node n).uuid (l.blocksOn n)).block b :=
  block_shed _ n _ b

end strip

/-- Whoever is stripped and dismissed is removed without a trace. -/
theorem removed_dismiss (hl : l.Coherent) (ho : l.Orderly) (h : l.Enrolled)
    (hn : (l.coordinator c).nodes.find? uuid = some n)
    (honly : ∀ v, l.isLive v = true → (l.storage v).owner = uuid → l.listed v ≠ [] →
      v ∈ (l.node n).storages.values) : l.Removed c uuid n ((l.strip c n).dismiss c uuid n) := by
  have hmade := h.made c uuid n hn
  have huuid := h.uuid c uuid n hn
  let us := (l.node n).storages.values
  let taken := l.take (l.coordinator c).lock
  have htaken : taken.Coherent := (alike_modifyLock _ _).quiet.coherent hl
  have hhouses : l.Houses (l.node n).uuid us := hl.houses ho (mem_heldNodes_of_find? hn) (huuid ▸ honly)
  have hhoused : taken.Houses (l.node n).uuid us := ⟨hhouses.nodup, hhouses.live, hhouses.owner, hhouses.only⟩
  have hall : (us.flatMap taken.listed).Subperm (l.blocksOn n) := List.Subperm.refl _
  have hself : ((l.strip c n).dismiss c uuid n).node n =
      { (l.node n).dropWork with cache := (l.node n).cache.clearAll, alive := false } := by
    rw [node_dismiss, if_pos rfl, node_strip_self hmade]
  have hother : ∀ v, v ∉ us → ((l.strip c n).dismiss c uuid n).storage v = l.storage v := by
    intro v hv
    rw [storage_dismiss, storage_strip]
    exact hhoused.storage_dropBlocks htaken (l.blocksOn n) hv
  have hholders : ∀ b, (((l.strip c n).dismiss c uuid n).block b).holders.Perm
      ((l.block b).holders.filter fun v => decide (v ∉ us)) := by
    intro b
    rw [block_dismiss, block_strip]
    exact hhoused.holders_dropAll htaken hall b
  have hvolumes : ∀ v ∈ (((l.strip c n).dismiss c uuid n).node n).storages.values, v ∈ us := by
    rw [hself]
    exact fun v hv => hv
  have hstrip : l.Steady (fun _ => True) (l.strip c n) := rel_strip hl h hn
  refine ⟨⟨?_, fun v hv => ?_⟩, fun b v hv hb => ?_, ?_, ?_, hself, fun stage => ?_, fun m hm => ?_,
    fun m hm v hv => ?_, hother, fun b => ?_, hholders⟩
  · rw [hself]
    exact ⟨rfl, rfl, rfl, (l.node n).spent_dropWork.unlisted, (l.node n).spent_dropWork.cache⟩
  · rw [storage_dismiss, storage_strip, (htaken.coherent_dropBlocks _ _).blockRefs_eq v,
      hhoused.listed_dropBlocks htaken hall (hvolumes v hv)]
  · have hmem := (List.mem_filter.1 ((hholders b).mem_iff.1 hb)).2
    exact of_decide_eq_true hmem (hvolumes v hv)
  · rw [hself]
  · exact find?_dismiss_self (Nat.lt_of_lt_of_le (lt_size_of_find? hn) hstrip.terms.size) uuid n
  · rw [hself]
    exact (l.node n).cache.isOk_length_clearAll stage
  · rw [node_dismiss, if_neg hm, node_strip_of_ne hm]
  · exact hother v fun hvn => hm (ho.apart m n v hv hvn)
  · rw [block_dismiss, block_strip]
    exact (relisted_dropBlocks taken (l.node n).uuid (l.blocksOn n)).block b

section fresh

/-- A change that leaves alone the volumes, the work and the cache lists of a node leaves it bare. -/
theorem Bare.modifyNode (h : l.Bare n) {f : Node → Node} (storages : (f (l.node n)).storages = (l.node n).storages)
    (transfers : (f (l.node n)).transfers = (l.node n).transfers)
    (recoveries : (f (l.node n)).recoveries = (l.node n).recoveries)
    (invalidations : (f (l.node n)).invalidations = (l.node n).invalidations)
    (cache : (f (l.node n)).cache = (l.node n).cache) : (l.modifyNode n f).Bare n := by
  have hsame {γ : Type} (g : Node → γ) (hg : g (f (l.node n)) = g (l.node n)) :
      g ((l.modifyNode n f).node n) = g (l.node n) := node_modifyNode_congr g hg n
  refine ⟨⟨?_, ?_, ?_, ?_, ?_⟩, fun v hv => h.lists v ?_⟩
  · rw [hsame Node.transfers transfers]
    exact h.spent.transfers
  · rw [hsame Node.recoveries recoveries]
    exact h.spent.recoveries
  · rw [hsame Node.invalidations invalidations]
    exact h.spent.invalidations
  · rw [hsame Node.cache cache]
    exact h.spent.unlisted
  · rw [hsame Node.cache cache]
    exact h.spent.cache
  · rwa [hsame Node.storages storages] at hv

/-- A volume that is new has no blocks. -/
theorem Bare.announce (h : l.Bare n) {a : Announcement} (ha : l.storageOf? n a.id = none) :
    (l.announce n a).Bare n := by
  have hlists : ∀ v, ((l.announce n a).storage v).blockRefs = (l.storage v).blockRefs := by
    intro v
    unfold Storage.blockRefs
    rw [(quiet_announce ha).lists v]
  by_cases hmade : n.index < l.nodes.size
  · have hnode := node_announce_self (a := a) hmade
    refine ⟨?_, fun v hv => ?_⟩
    · rw [hnode]
      exact ⟨h.spent.transfers, h.spent.recoveries, h.spent.invalidations, h.spent.unlisted, h.spent.cache⟩
    · rw [hnode] at hv
      rw [hlists]
      rcases Table.mem_values_insert hv with hold | rfl
      · exact h.lists v hold
      · have hnew : l.storage ⟨l.storages.size⟩ = default := by
          unfold storage
          rw [Array.getElem?_eq_none (Nat.le_refl _)]
          rfl
        rw [hnew]
        rfl
  · have hnode := node_announce_of_le (a := a) (Nat.le_of_not_lt hmade)
    refine ⟨hnode ▸ h.spent, fun v hv => ?_⟩
    rw [hnode] at hv
    rw [hlists]
    exact h.lists v hv

theorem Bare.updateStorage (h : l.Bare n) (a : Announcement) : (l.updateStorage n a).Bare n := by
  unfold Ledger.updateStorage
  cases hfind : l.storageOf? n a.id with
  | some v =>
    refine ⟨h.spent, fun w hw => ?_⟩
    have hblocks := storage_modifyStorage_congr (l := l) (s := v)
      (f := fun storage => { storage with state := a.state }) Storage.blocks rfl w
    have hlists := h.lists w hw
    unfold Storage.blockRefs at hlists ⊢
    rw [hblocks]
    exact hlists
  | none => exact h.announce hfind

theorem Bare.hear (h : l.Bare n) (storages : List Announcement) : (l.hear n storages).Bare n := by
  have hfold : (storages.foldl (fun l a => l.updateStorage n a) l).Bare n := by
    induction storages generalizing l with
    | nil => exact h
    | cons a storages ih => exact ih (h.updateStorage a)
  exact hfold.modifyNode rfl rfl rfl rfl rfl

theorem Bare.revive (h : l.Bare n) (c : CoordinatorRef) : (l.revive c n).Bare n := by
  have hlively : (l.modifyNode n fun node => { node with alive := true }).Bare n :=
    h.modifyNode rfl rfl rfl rfl rfl
  unfold Ledger.revive
  split
  · exact h
  · exact ⟨hlively.spent, hlively.lists⟩

end fresh
end Ledger

namespace Service
variable {s : Service} {c : CoordinatorRef} {uuid : String}

end Service

end DatanodeLedger
