import DatanodeLedger.Proofs.Registry.Footprint
import DatanodeLedger.Proofs.Registry.Renaming

/-! Two runs in the name of one node, side by side, from two ledgers on which the node is the same. Each keeps to the
node, its volumes and the records that it makes, and the two do the same to them. -/
namespace DatanodeLedger.Ledger
variable {l₀ l₀' l l' : Ledger} {c : CoordinatorRef} {uuid : String} {n : NodeRef} {v : StorageRef} {b : BlockRef}
  {f : NamespaceLock → NamespaceLock}

/-- The name of a node that is made after a ledger, if it is made after another one instead. -/
def moveNode (l₀ l₀' : Ledger) : NodeRef → NodeRef := NodeRef.renumber l₀.nodes.size l₀'.nodes.size

def moveVolume (l₀ l₀' : Ledger) : StorageRef → StorageRef := StorageRef.renumber l₀.storages.size l₀'.storages.size

theorem moveNode_of_lt (h : n.index < l₀.nodes.size) (l₀' : Ledger) : l₀.moveNode l₀' n = n :=
  congrArg NodeRef.mk (renumber_of_lt h _)

theorem moveVolume_of_lt (h : v.index < l₀.storages.size) (l₀' : Ledger) : l₀.moveVolume l₀' v = v :=
  congrArg StorageRef.mk (renumber_of_lt h _)

/-- Two runs in the name of one node are at the same point: `l` since `l₀`, and `l'` since `l₀'`. The node, its
volumes and what has been made are the same records, up to the names of what has been made. The function `f` is what
has become of the lock of the coordinator. -/
structure Lockstep (c : CoordinatorRef) (uuid : String) (l₀ l₀' : Ledger) (f : NamespaceLock → NamespaceLock)
    (l l' : Ledger) : Prop where
  within : Within c uuid l₀ l
  laterNodes : l₀.nodes.size ≤ l₀'.nodes.size
  laterStorages : l₀.storages.size ≤ l₀'.storages.size
  nodes : l'.nodes.size + l₀.nodes.size = l.nodes.size + l₀'.nodes.size
  storages : l'.storages.size + l₀.storages.size = l.storages.size + l₀'.storages.size
  made : c.index < l.coordinators.size
  made' : c.index < l'.coordinators.size
  node : ∀ n, l₀.Owns c uuid n → l'.node (l₀.moveNode l₀' n) = (l.node n).rename (l₀.moveVolume l₀')
  storage : ∀ v, l₀.Has c uuid v → l'.storage (l₀.moveVolume l₀' v) = l.storage v
  block : ∀ b, (l'.block b).block = (l.block b).block
  closed : ∀ n, l₀.Owns c uuid n → ∀ v ∈ (l.node n).storages.values, l₀.Has c uuid v
  owner : ∀ n, (l.coordinator c).nodes.find? uuid = some n → l₀.Owns c uuid n
  entry : (l'.coordinator c).nodes.find? uuid = ((l.coordinator c).nodes.find? uuid).map (l₀.moveNode l₀')
  limits : (l'.coordinator c).limits = (l.coordinator c).limits
  lock : (l'.coordinator c).lock = (l.coordinator c).lock
  counter : ∀ k, (l'.coordinator c).metrics.counter k + (l₀.coordinator c).metrics.counter k =
    (l.coordinator c).metrics.counter k + (l₀'.coordinator c).metrics.counter k
  locks : l.locks = l₀.locks.modify (l₀.coordinator c).lock.index f
  locks' : l'.locks = l₀'.locks.modify (l₀.coordinator c).lock.index f
  rest : l'.clock = l.clock ∧ l'.openBlocks = l.openBlocks

namespace Lockstep

theorem moveNode_inj (h : Lockstep c uuid l₀ l₀' f l l') {m n : NodeRef}
    (he : l₀.moveNode l₀' m = l₀.moveNode l₀' n) : m = n :=
  congrArg NodeRef.mk (renumber_inj h.laterNodes (congrArg NodeRef.index he))

theorem moveVolume_inj (h : Lockstep c uuid l₀ l₀' f l l') {v w : StorageRef}
    (he : l₀.moveVolume l₀' v = l₀.moveVolume l₀' w) : v = w :=
  congrArg StorageRef.mk (renumber_inj h.laterStorages (congrArg StorageRef.index he))

/-- A node has been made in the one run exactly if it has been made in the other. -/
theorem node_made_iff (h : Lockstep c uuid l₀ l₀' f l l') (n : NodeRef) :
    (l₀.moveNode l₀' n).index < l'.nodes.size ↔ n.index < l.nodes.size :=
  renumber_lt_iff h.laterNodes h.within.nodes h.nodes

theorem storage_made_iff (h : Lockstep c uuid l₀ l₀' f l l') (v : StorageRef) :
    (l₀.moveVolume l₀' v).index < l'.storages.size ↔ v.index < l.storages.size :=
  renumber_lt_iff h.laterStorages h.within.storages h.storages

/-- The next node to be made is the same in both runs. -/
theorem moveNode_size (h : Lockstep c uuid l₀ l₀' f l l') : l₀.moveNode l₀' ⟨l.nodes.size⟩ = ⟨l'.nodes.size⟩ :=
  congrArg NodeRef.mk (renumber_size h.within.nodes h.nodes)

theorem moveVolume_size (h : Lockstep c uuid l₀ l₀' f l l') :
    l₀.moveVolume l₀' ⟨l.storages.size⟩ = ⟨l'.storages.size⟩ :=
  congrArg StorageRef.mk (renumber_size h.within.storages h.storages)

theorem now (h : Lockstep c uuid l₀ l₀' f l l') : l'.now = l.now := by
  unfold Ledger.now
  rw [h.rest.1]

theorem storageOf? (h : Lockstep c uuid l₀ l₀' f l l') (hn : l₀.Owns c uuid n) (id : String) :
    l'.storageOf? (l₀.moveNode l₀' n) id = (l.storageOf? n id).map (l₀.moveVolume l₀') := by
  unfold Ledger.storageOf?
  rw [h.node n hn, Node.find?_rename]

section steps
variable (h : Lockstep c uuid l₀ l₀' f l l')
include h

theorem modifyNode (hn : l₀.Owns c uuid n) {g g' : Node → Node}
    (hg : g' ((l.node n).rename (l₀.moveVolume l₀')) = (g (l.node n)).rename (l₀.moveVolume l₀'))
    (hclosed : ∀ v ∈ (g (l.node n)).storages.values, l₀.Has c uuid v)
    (hwork : (g (l.node n)).transfers.items ⊆ (l.node n).transfers.items) :
    Lockstep c uuid l₀ l₀' f (l.modifyNode n g) (l'.modifyNode (l₀.moveNode l₀' n) g') := by
  have hsize : (l.modifyNode n g).nodes.size = l.nodes.size := Array.size_modify
  have hsize' : (l'.modifyNode (l₀.moveNode l₀' n) g').nodes.size = l'.nodes.size := Array.size_modify
  refine { h with
    within := h.within.modifyNode hn hwork, nodes := ?_, node := fun m hm => ?_, closed := fun m hm v hv => ?_ }
  · rw [hsize, hsize']
    exact h.nodes
  · by_cases hmn : m = n
    · subst hmn
      by_cases hlt : m.index < l.nodes.size
      · rw [node_modifyNode hlt, node_modifyNode ((h.node_made_iff m).2 hlt), h.node m hm, hg]
      · have hlt' := (h.node_made_iff m).not.2 hlt
        have hsame := h.node m hm
        rw [node_of_le (Nat.le_of_not_lt hlt), node_of_le (Nat.le_of_not_lt hlt')] at hsame
        rw [node_of_le (hsize' ▸ Nat.le_of_not_lt hlt'), node_of_le (hsize ▸ Nat.le_of_not_lt hlt)]
        exact hsame
    · rw [node_modifyNode_of_ne hmn, node_modifyNode_of_ne fun he => hmn (h.moveNode_inj he)]
      exact h.node m hm
  · rcases node_modifyNode_cases l n m g with hsame | ⟨rfl, hchanged⟩
    · rw [hsame] at hv
      exact h.closed m hm v hv
    · rw [hchanged] at hv
      exact hclosed v hv

/-- A change that leaves alone the volumes of the node, does not look at them, and queues no transfer. -/
theorem changeNode (hn : l₀.Owns c uuid n) (g : Node → Node) (hkeeps : ∀ node, (g node).storages = node.storages)
    (hg : ∀ node ρ, g (node.rename ρ) = (g node).rename ρ)
    (hwork : ∀ node, (g node).transfers.items ⊆ node.transfers.items) :
    Lockstep c uuid l₀ l₀' f (l.modifyNode n g) (l'.modifyNode (l₀.moveNode l₀' n) g) :=
  h.modifyNode hn (hg _ _) (fun v hv => h.closed n hn v (hkeeps (l.node n) ▸ hv)) (hwork _)

theorem setNode (hn : l₀.Owns c uuid n) {node : Node} (hclosed : ∀ v ∈ node.storages.values, l₀.Has c uuid v)
    (hwork : node.transfers.items ⊆ (l.node n).transfers.items) :
    Lockstep c uuid l₀ l₀' f (l.setNode n node)
      (l'.setNode (l₀.moveNode l₀' n) (node.rename (l₀.moveVolume l₀'))) :=
  h.modifyNode hn rfl hclosed hwork

theorem modifyStorage (hv : l₀.Has c uuid v) (g : Storage → Storage) :
    Lockstep c uuid l₀ l₀' f (l.modifyStorage v g) (l'.modifyStorage (l₀.moveVolume l₀' v) g) := by
  have hsize : (l.modifyStorage v g).storages.size = l.storages.size := Array.size_modify
  have hsize' : (l'.modifyStorage (l₀.moveVolume l₀' v) g).storages.size = l'.storages.size := Array.size_modify
  refine { h with within := h.within.modifyStorage hv g, storages := ?_, storage := fun w hw => ?_ }
  · rw [hsize, hsize']
    exact h.storages
  · by_cases hwv : w = v
    · subst hwv
      by_cases hlt : w.index < l.storages.size
      · rw [storage_modifyStorage hlt, storage_modifyStorage ((h.storage_made_iff w).2 hlt), h.storage w hw]
      · have hlt' := (h.storage_made_iff w).not.2 hlt
        rw [storage_of_le (hsize' ▸ Nat.le_of_not_lt hlt'), storage_of_le (hsize ▸ Nat.le_of_not_lt hlt)]
    · rw [storage_modifyStorage_of_ne hwv, storage_modifyStorage_of_ne fun he => hwv (h.moveVolume_inj he)]
      exact h.storage w hw

theorem modifyLock (g : NamespaceLock → NamespaceLock) :
    Lockstep c uuid l₀ l₀' (g ∘ f) (l.modifyLock (l₀.coordinator c).lock g)
      (l'.modifyLock (l₀.coordinator c).lock g) := by
  exact { h with
    within := h.within.modifyLock _ g
    locks := (congrArg (·.modify (l₀.coordinator c).lock.index g) h.locks).trans (modify_modify _ _ f g)
    locks' := (congrArg (·.modify (l₀.coordinator c).lock.index g) h.locks').trans (modify_modify _ _ f g) }

theorem modifyHolders (b : BlockRef) (g g' : List StorageRef → List StorageRef) :
    Lockstep c uuid l₀ l₀' f (l.modifyBlock b fun record => { record with holders := g record.holders })
      (l'.modifyBlock b fun record => { record with holders := g' record.holders }) :=
  { h with
    within := h.within.modifyHolders b g
    block := fun d => ((block_modifyBlock_congr BlockRecord.block rfl d).trans (h.block d)).trans
      (block_modifyBlock_congr BlockRecord.block rfl d).symm }

theorem addNode {node : Node} (hnode : node.storages = {}) (hwork : node.transfers = {}) :
    Lockstep c uuid l₀ l₀' f (l.addNode node).2 (l'.addNode node).2 := by
  have hnew : l₀.moveNode l₀' ⟨l.nodes.size⟩ = ⟨l'.nodes.size⟩ := h.moveNode_size
  refine { h with
    within := h.within.addNode hwork, nodes := ?_, node := fun m hm => ?_, closed := fun m hm v hv => ?_ }
  · have hnodes := h.nodes
    rw [size_addNode, size_addNode]
    omega
  · rcases node_addNode_cases l node m with hsame | ⟨hsize, hself⟩
    · rcases node_addNode_cases l' node (l₀.moveNode l₀' m) with hsame' | ⟨hsize', -⟩
      · rw [hsame, hsame']
        exact h.node m hm
      · obtain rfl : m = ⟨l.nodes.size⟩ := h.moveNode_inj (hnew ▸ congrArg NodeRef.mk hsize')
        rw [node_addNode_self, hnew, node_addNode_self]
        exact (Node.rename_eq_self (by rw [hnode]; exact fun _ hv => (List.not_mem_nil hv).elim)).symm
    · obtain rfl : m = ⟨l.nodes.size⟩ := congrArg NodeRef.mk hsize
      rw [hself, hnew, node_addNode_self]
      exact (Node.rename_eq_self (by rw [hnode]; exact fun _ hv => (List.not_mem_nil hv).elim)).symm
  · rcases node_addNode_cases l node m with hsame | ⟨-, hself⟩
    · rw [hsame] at hv
      exact h.closed m hm v hv
    · rw [hself, hnode] at hv
      exact (List.not_mem_nil hv).elim

theorem addStorage (s : Storage) : Lockstep c uuid l₀ l₀' f (l.addStorage s).2 (l'.addStorage s).2 := by
  have hsize : (l.addStorage s).2.storages.size = l.storages.size + 1 := Array.size_push s
  have hsize' : (l'.addStorage s).2.storages.size = l'.storages.size + 1 := Array.size_push s
  have hcases : ∀ (l : Ledger) (w : StorageRef),
      (l.addStorage s).2.storage w = if w = ⟨l.storages.size⟩ then s else l.storage w := by
    intro l w
    unfold Ledger.storage Ledger.addStorage
    rw [Array.getElem?_push]
    by_cases hw : w = ⟨l.storages.size⟩
    · rw [if_pos hw, if_pos (congrArg StorageRef.index hw)]
      rfl
    · rw [if_neg hw, if_neg fun he => hw (congrArg StorageRef.mk he)]
  refine { h with within := h.within.addStorage s, storages := ?_, storage := fun w hw => ?_ }
  · have hstorages := h.storages
    omega
  · rw [hcases, hcases, ← h.moveVolume_size]
    by_cases hnew : w = ⟨l.storages.size⟩
    · rw [if_pos hnew, if_pos (congrArg _ hnew)]
    · rw [if_neg hnew, if_neg fun he => hnew (h.moveVolume_inj he)]
      exact h.storage w hw

theorem announce (hn : l₀.Owns c uuid n) (a : Announcement) :
    Lockstep c uuid l₀ l₀' f (l.announce n a) (l'.announce (l₀.moveNode l₀' n) a) := by
  have huuid : (l'.node (l₀.moveNode l₀' n)).uuid = (l.node n).uuid := by
    rw [h.node n hn]
    rfl
  unfold Ledger.announce
  rw [huuid, ← h.moveVolume_size]
  refine (h.addStorage (.announced (l.node n).uuid a)).modifyNode hn ?_ (fun v hv => ?_) fun _ ht => ht
  · simp only [Node.rename, Table.mapValues_insert]
  · rcases Table.mem_values_insert hv with hold | rfl
    · exact h.closed n hn v hold
    · exact .inr h.within.storages

theorem modifyMetrics (g : Metrics → Metrics) (rise : Counter → UInt64)
    (hg : ∀ m k, (g m).counter k = m.counter k + rise k) (hstarted : ∀ m, (g m).started = m.started) :
    Lockstep c uuid l₀ l₀' f (l.modifyCoordinator c fun k => { k with metrics := g k.metrics })
      (l'.modifyCoordinator c fun k => { k with metrics := g k.metrics }) := by
  have hcoordinator := coordinator_modifyCoordinator h.made fun k => { k with metrics := g k.metrics }
  have hcoordinator' := coordinator_modifyCoordinator h.made' fun k => { k with metrics := g k.metrics }
  refine { h with
    within := h.within.modifyCoordinator (fun _ => rfl) (fun _ => rfl) (fun k => hstarted k.metrics) fun _ _ _ => rfl
    made := Nat.lt_of_lt_of_eq h.made Array.size_modify.symm
    made' := Nat.lt_of_lt_of_eq h.made' Array.size_modify.symm
    owner := ?_, entry := ?_, limits := ?_, lock := ?_, counter := fun k => ?_ }
  · rw [hcoordinator]
    exact h.owner
  · rw [hcoordinator, hcoordinator']
    exact h.entry
  · rw [hcoordinator, hcoordinator']
    exact h.limits
  · rw [hcoordinator, hcoordinator']
    exact h.lock
  · have hcounter := h.counter k
    rw [hcoordinator, hcoordinator']
    simp only [hg]
    grind

theorem modifyRegistry (g g' : Table String NodeRef → Table String NodeRef)
    (hother : ∀ t id, id ≠ uuid → (g t).find? id = t.find? id)
    (howner : ∀ t n, (g t).find? uuid = some n → l₀.Owns c uuid n)
    (hentry : ∀ t t', (g' t').find? uuid = ((g t).find? uuid).map (l₀.moveNode l₀')) :
    Lockstep c uuid l₀ l₀' f (l.modifyCoordinator c fun k => { k with nodes := g k.nodes })
      (l'.modifyCoordinator c fun k => { k with nodes := g' k.nodes }) := by
  have hcoordinator := coordinator_modifyCoordinator h.made fun k => { k with nodes := g k.nodes }
  have hcoordinator' := coordinator_modifyCoordinator h.made' fun k => { k with nodes := g' k.nodes }
  refine { h with
    within := h.within.modifyCoordinator (fun _ => rfl) (fun _ => rfl) (fun _ => rfl)
      fun k id hid => hother k.nodes id hid
    made := Nat.lt_of_lt_of_eq h.made Array.size_modify.symm
    made' := Nat.lt_of_lt_of_eq h.made' Array.size_modify.symm
    owner := ?_, entry := ?_, limits := ?_, lock := ?_, counter := fun k => ?_ }
  · rw [hcoordinator]
    exact howner _
  · rw [hcoordinator, hcoordinator']
    exact hentry _ _
  · rw [hcoordinator, hcoordinator']
    exact h.limits
  · rw [hcoordinator, hcoordinator']
    exact h.lock
  · rw [hcoordinator, hcoordinator']
    exact h.counter k

end steps

section volumes
variable (h : Lockstep c uuid l₀ l₀' f l l')
include h

theorem updateStorage (hn : l₀.Owns c uuid n) (a : Announcement) :
    Lockstep c uuid l₀ l₀' f (l.updateStorage n a) (l'.updateStorage (l₀.moveNode l₀' n) a) := by
  unfold Ledger.updateStorage
  rw [h.storageOf? hn]
  cases hv : l.storageOf? n a.id with
  | some v => exact h.modifyStorage (h.closed n hn v (Table.mem_values_of_find? hv)) _
  | none => exact h.announce hn a

theorem hear (hn : l₀.Owns c uuid n) (storages : List Announcement) :
    Lockstep c uuid l₀ l₀' f (l.hear n storages) (l'.hear (l₀.moveNode l₀' n) storages) := by
  have hfold : Lockstep c uuid l₀ l₀' f (storages.foldl (fun l a => l.updateStorage n a) l)
      (storages.foldl (fun l a => l.updateStorage (l₀.moveNode l₀' n) a) l') := by
    induction storages generalizing l l' with
    | nil => exact h
    | cons a storages ih => exact ih (h.updateStorage hn a)
  unfold Ledger.hear
  simp only [hfold.now]
  exact hfold.changeNode hn (fun node => node.setLastUpdate _) (fun _ => rfl) (fun _ _ => rfl) fun _ _ ht => ht

theorem modifyStorages {vs : List StorageRef} (hvs : ∀ v ∈ vs, l₀.Has c uuid v) (g : Storage → Storage) :
    Lockstep c uuid l₀ l₀' f (l.modifyStorages vs g) (l'.modifyStorages (vs.map (l₀.moveVolume l₀')) g) := by
  induction vs generalizing l l' with
  | nil => exact h
  | cons v vs ih =>
    exact ih (h.modifyStorage (hvs v List.mem_cons_self) g) fun w hw => hvs w (List.mem_cons_of_mem v hw)

theorem takeReports (hn : l₀.Owns c uuid n) (now : UInt64) (reports : List StorageReport) :
    Lockstep c uuid l₀ l₀' f (l.takeReports n now reports) (l'.takeReports (l₀.moveNode l₀' n) now reports) := by
  induction reports generalizing l l' with
  | nil => exact h
  | cons r reports ih =>
    have hone : Lockstep c uuid l₀ l₀' f (takeReport n now l r) (takeReport (l₀.moveNode l₀' n) now l' r) := by
      unfold takeReport
      rw [h.storageOf? hn]
      cases hv : l.storageOf? n r.storage.id with
      | some v => exact h.modifyStorage (h.closed n hn v (Table.mem_values_of_find? hv)) _
      | none => exact h
    exact ih hone

theorem readdress (hn : l₀.Owns c uuid n) (r : Registration) :
    Lockstep c uuid l₀ l₀' f (l.readdress n r) (l'.readdress (l₀.moveNode l₀' n) r) := by
  unfold Ledger.readdress
  rw [h.node n hn, Node.values_rename]
  exact (h.changeNode hn (Node.readdress · r) (fun _ => rfl) (fun _ _ => rfl) fun _ _ ht => ht).modifyStorages
    (h.closed n hn) _

end volumes

section coordinator
variable (h : Lockstep c uuid l₀ l₀' f l l')
include h

theorem count (counts : List (Counter × UInt64)) : Lockstep c uuid l₀ l₀' f (l.count c counts) (l'.count c counts) := by
  induction counts generalizing l l' with
  | nil => exact h
  | cons p counts ih =>
    refine ih (h.modifyMetrics (·.add p.1 p.2) (fun k => if k = p.1 then p.2 else 0) (fun m k => ?_) fun m => ?_)
    · obtain ⟨counter, n⟩ := p
      cases counter <;> cases k <;> simp [Metrics.add, Metrics.counter]
    · obtain ⟨counter, n⟩ := p
      cases counter <;> rfl

private theorem regauge (g : Metrics → Metrics) (hcounter : ∀ m k, (g m).counter k = m.counter k)
    (hstarted : ∀ m, (g m).started = m.started) :
    Lockstep c uuid l₀ l₀' f (l.modifyCoordinator c fun k => { k with metrics := g k.metrics })
      (l'.modifyCoordinator c fun k => { k with metrics := g k.metrics }) :=
  h.modifyMetrics g (fun _ => 0) (fun m k => (hcounter m k).trans (UInt64.add_zero _).symm) hstarted

theorem raise (gauge : Gauge) :
    Lockstep c uuid l₀ l₀' f (l.modifyCoordinator c fun k => { k with metrics := k.metrics.raise gauge })
      (l'.modifyCoordinator c fun k => { k with metrics := k.metrics.raise gauge }) :=
  h.regauge (·.raise gauge) (fun _ k => by cases gauge <;> cases k <;> rfl) fun _ => by cases gauge <;> rfl

theorem lower (gauge : Gauge) :
    Lockstep c uuid l₀ l₀' f (l.modifyCoordinator c fun k => { k with metrics := k.metrics.lower gauge })
      (l'.modifyCoordinator c fun k => { k with metrics := k.metrics.lower gauge }) :=
  h.regauge (·.lower gauge) (fun _ k => by cases gauge <;> cases k <;> rfl) fun _ => by cases gauge <;> rfl

theorem alive (hn : l₀.Owns c uuid n) : (l'.node (l₀.moveNode l₀' n)).alive = (l.node n).alive := by
  rw [h.node n hn]
  rfl

theorem revive (hn : l₀.Owns c uuid n) :
    Lockstep c uuid l₀ l₀' f (l.revive c n) (l'.revive c (l₀.moveNode l₀' n)) := by
  unfold Ledger.revive
  rw [h.alive hn]
  split
  · exact h
  · exact (h.changeNode hn ({ · with alive := true }) (fun _ => rfl) (fun _ _ => rfl) fun _ _ ht => ht).raise
      .liveDatanodes

theorem kill (hn : l₀.Owns c uuid n) : Lockstep c uuid l₀ l₀' f (l.kill c n) (l'.kill c (l₀.moveNode l₀' n)) := by
  unfold Ledger.kill
  rw [h.alive hn]
  split
  · exact (h.changeNode hn ({ · with alive := false }) (fun _ => rfl) (fun _ _ => rfl) fun _ _ ht => ht).lower
      .liveDatanodes
  · exact h

theorem settle (hn : l₀.Owns c uuid n) (storages : List Announcement) :
    Lockstep c uuid l₀ l₀' f (l.settle c n storages) (l'.settle c (l₀.moveNode l₀' n) storages) :=
  (h.hear hn storages).revive hn

theorem enroll {r : Registration} (hr : r.uuid = uuid) : Lockstep c uuid l₀ l₀' f (l.enroll c r) (l'.enroll c r) := by
  have hn : l₀.Owns c uuid ⟨l.nodes.size⟩ := .inr h.within.nodes
  have hbound : Lockstep c uuid l₀ l₀' f (l.bound c r) (l'.bound c r) := by
    unfold bound
    rw [h.lock, ← h.moveNode_size]
    exact (h.addNode rfl rfl).changeNode hn ({ · with lock := some (l.coordinator c).lock }) (fun _ => rfl)
      (fun _ _ => rfl) fun _ _ ht => ht
  have henter : Lockstep c uuid l₀ l₀' f (l.enter c r) (l'.enter c r) := by
    unfold enter
    rw [← h.moveNode_size, hr]
    refine hbound.modifyRegistry (·.insert uuid ⟨l.nodes.size⟩) (·.insert uuid (l₀.moveNode l₀' ⟨l.nodes.size⟩))
      (fun t id hid => t.find?_insert_of_ne hid _) (fun t m hm => ?_) fun t t' => ?_
    · rw [Table.find?_insert_self] at hm
      cases hm
      exact hn
    · rw [Table.find?_insert_self, Table.find?_insert_self]
      rfl
  exact henter.raise .registeredDatanodes

theorem dismiss (hn : l₀.Owns c uuid n) :
    Lockstep c uuid l₀ l₀' f (l.dismiss c uuid n) (l'.dismiss c uuid (l₀.moveNode l₀' n)) := by
  unfold Ledger.dismiss
  have herased := h.modifyRegistry (·.erase uuid) (·.erase uuid) (fun t id hid => t.find?_erase_of_ne hid)
    (fun t m hm => ?_) fun t t' => ?_
  · exact (herased.kill hn).lower .registeredDatanodes
  · rw [Table.find?_erase_self] at hm
    cases hm
  · rw [Table.find?_erase_self, Table.find?_erase_self]
    rfl

theorem clearCache (hn : l₀.Owns c uuid n) :
    Lockstep c uuid l₀ l₀' f (l.clearCache n) (l'.clearCache (l₀.moveNode l₀' n)) :=
  h.changeNode hn (fun node => { node with cache := node.cache.clearAll }) (fun _ => rfl) (fun _ _ => rfl)
    fun _ _ ht => ht

end coordinator

section blocks
variable {us : List StorageRef} (hus : ∀ v ∈ us, l₀.Has c uuid v ∧ l₀.moveVolume l₀' v = v)
  (h : Lockstep c uuid l₀ l₀' f l l') (hl : l.Sole uuid us) (hl' : l'.Sole uuid us)
include hus h

private theorem storage_eq (hv : v ∈ us) : l'.storage v = l.storage v := by
  have hstorage := h.storage v (hus v hv).1
  rwa [(hus v hv).2] at hstorage

private theorem relist (hv : v ∈ us) (b : BlockRef) (blocks : Slab UInt64 BlockRef)
    (g g' : List StorageRef → List StorageRef) : Lockstep c uuid l₀ l₀' f
      ((l.modifyStorage v fun storage => { storage with blocks }).modifyBlock b fun record =>
        { record with holders := g record.holders })
      ((l'.modifyStorage v fun storage => { storage with blocks }).modifyBlock b fun record =>
        { record with holders := g' record.holders }) := by
  have hmodify := h.modifyStorage (hus v hv).1 fun storage => { storage with blocks }
  rw [(hus v hv).2] at hmodify
  exact hmodify.modifyHolders b g g'

include hl hl'

theorem holderOn? (b : BlockRef) : l'.holderOn? b uuid = l.holderOn? b uuid := by
  refine Option.ext fun v => ?_
  rw [hl.holderOn?_eq_some_iff, hl'.holderOn?_eq_some_iff]
  refine and_congr_right fun hv => ?_
  rw [listed_congr (congrArg Storage.blocks (h.storage_eq hus hv))]

theorem dropBlock (b : BlockRef) : Lockstep c uuid l₀ l₀' f (l.dropBlock uuid b) (l'.dropBlock uuid b) := by
  unfold Ledger.dropBlock
  rw [h.holderOn? hus hl hl' b]
  cases hv : l.holderOn? b uuid with
  | none => exact h
  | some v =>
    have hvu := (hl.holderOn?_eq_some_iff.1 hv).1
    unfold Ledger.detach lists
    simp only
    rw [h.storage_eq hus hvu, h.block b]
    cases (l.storage v).blocks.get? (l.block b).block.id with
    | error e => exact h
    | ok found =>
      by_cases hfound : found = some b
      · cases hremove : (l.storage v).blocks.remove (l.block b).block.id with
        | error e =>
          simp only [hfound, bind, Except.bind, pure, Except.pure, decide_true, if_true]
          exact h
        | ok removed =>
          simp only [hfound, bind, Except.bind, pure, Except.pure, decide_true, if_true]
          exact h.relist hus hvu b removed.2 (swapRemove v) (swapRemove v)
      · simp only [hfound, bind, Except.bind, pure, Except.pure, decide_false, Bool.false_eq_true, if_false]
        exact h

theorem dropBlocks (bs : List BlockRef) :
    Lockstep c uuid l₀ l₀' f (l.dropBlocks uuid bs) (l'.dropBlocks uuid bs) := by
  induction bs generalizing l l' with
  | nil => exact h
  | cons b bs ih => exact ih (h.dropBlock hus hl hl' b) (hl.dropBlock b) (hl'.dropBlock b)

theorem takeIn (hv : v ∈ us) (b : BlockRef) :
    (l'.takeIn v b).1 = (l.takeIn v b).1 ∧ Lockstep c uuid l₀ l₀' f (l.takeIn v b).2 (l'.takeIn v b).2 := by
  have hor : ((l.storage v).blocks.contains (l.block b).block.id || l.refersTo b v) =
      (l.storage v).blocks.contains (l.block b).block.id := by
    cases hr : l.refersTo b v with
    | false => exact Bool.or_false _
    | true => rw [hl.contains_of_refersTo hv hr]; rfl
  have hor' : ((l'.storage v).blocks.contains (l'.block b).block.id || l'.refersTo b v) =
      (l'.storage v).blocks.contains (l'.block b).block.id := by
    cases hr : l'.refersTo b v with
    | false => exact Bool.or_false _
    | true => rw [hl'.contains_of_refersTo hv hr]; rfl
  unfold Ledger.takeIn Ledger.attach
  simp only [hor, hor']
  rw [h.storage_eq hus hv, h.block b]
  cases (l.storage v).blocks.contains (l.block b).block.id with
  | true => exact ⟨rfl, h⟩
  | false =>
    cases (l.storage v).blocks.pushFront Storage.blockList (l.block b).block.id b with
    | error e => exact ⟨rfl, h⟩
    | ok pushed => exact ⟨rfl, h.relist hus hv b pushed.2 (fun _ => _) fun _ => _⟩

theorem place (hv : v ∈ us) (b : BlockRef) : (l'.place uuid v b).1 = (l.place uuid v b).1 ∧
    Lockstep c uuid l₀ l₀' f (l.place uuid v b).2 (l'.place uuid v b).2 := by
  unfold Ledger.place
  rw [h.holderOn? hus hl hl' b]
  cases l.holderOn? b uuid with
  | none => exact h.takeIn hus hl hl' hv b
  | some source =>
    by_cases hsource : source = v
    · simp only [hsource, if_true]
      exact ⟨trivial, h⟩
    · simp only [if_neg hsource]
      exact (h.dropBlock hus hl hl' b).takeIn hus (hl.dropBlock b) (hl'.dropBlock b) hv b

end blocks

section operations
variable (h : Lockstep c uuid l₀ l₀' f l l')
include h

theorem take : Lockstep c uuid l₀ l₀' (({ · with held := true }) ∘ f) (l.take (l₀.coordinator c).lock)
    (l'.take (l₀.coordinator c).lock) := h.modifyLock _

theorem release : Lockstep c uuid l₀ l₀' (({ · with held := false }) ∘ f) (l.release (l₀.coordinator c).lock)
    (l'.release (l₀.coordinator c).lock) := h.modifyLock _

theorem welcome (hn : l₀.Owns c uuid n) (r : Registration) : Lockstep c uuid l₀ l₀' (({ · with held := false }) ∘ f)
    (l.welcome c n r) (l'.welcome c (l₀.moveNode l₀' n) r) := by
  have hforgotten := (h.readdress hn r).take.changeNode hn Node.forgetReports (fun _ => rfl) (fun _ _ => rfl)
    fun _ _ ht => ht
  unfold Ledger.welcome
  rw [h.lock, h.within.lock]
  exact (hforgotten.clearCache hn).release

theorem beat (hn : l₀.Owns c uuid n) (beat : Heartbeat) :
    Lockstep c uuid l₀ l₀' f (l.beat c n beat) (l'.beat c (l₀.moveNode l₀' n) beat) := by
  have hknows : ((l.node n).rename (l₀.moveVolume l₀')).knows = (l.node n).knows := funext ((l.node n).knows_rename _)
  unfold Ledger.beat
  simp only [h.node n hn, h.now, h.limits, hknows, Node.receive_rename, Node.serve_rename]
  refine ((h.takeReports hn l.now beat.reports).setNode hn (fun v hv => h.closed n hn v ?_) ?_).count _
  · rwa [Node.storages_serve] at hv
  · rw [node_takeReports]
    exact Node.transfers_serve _ _

theorem queue (hn : l₀.Owns c uuid n) (b : OpenRef) :
    l'.offer (l₀.moveNode l₀' n) b = l.offer n b ∧
      Lockstep c uuid l₀ l₀' f (l.queue c n b) (l'.queue c (l₀.moveNode l₀' n) b) := by
  have hoffer : l'.offer (l₀.moveNode l₀' n) b = l.offer n b := by
    unfold Ledger.offer openBlock
    rw [h.node n hn, h.rest.2]
    rfl
  refine ⟨hoffer, ?_⟩
  unfold Ledger.queue
  rw [hoffer]
  split
  · exact h.changeNode hn (fun node => { node with recoveries := (l.offer n b).2 }) (fun _ => rfl) (fun _ _ => rfl)
      fun _ _ ht => ht
  · exact h.count _

end operations

end Lockstep
end DatanodeLedger.Ledger
