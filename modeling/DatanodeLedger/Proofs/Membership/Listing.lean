import DatanodeLedger.Ledger.Membership
import DatanodeLedger.Proofs.Slab.Shown

/-! The blocks that a volume lists, and the records of a ledger in which one record has changed. -/
namespace DatanodeLedger

theorem swapRemove_perm {α : Type} [DecidableEq α] (a : α) (as : List α) :
    (swapRemove a as).Perm (as.erase a) := by
  by_cases ha : a ∈ as
  · obtain ⟨pre, post, rfl, hpre⟩ := List.eq_append_cons_of_mem ha
    have hnone : pre.findIdx? (· == a) = none := by
      refine List.findIdx?_eq_none_iff.2 fun x hx => beq_eq_false_iff_ne.2 ?_
      rintro rfl
      exact hpre hx
    have hidx : (pre ++ a :: post).idxOf? a = some pre.length := by
      rw [List.idxOf?, List.findIdx?_append, hnone, List.findIdx?_cons, beq_self_eq_true]
      simp
    rw [List.erase_append_right _ hpre, List.erase_cons_head, swapRemove, hidx]
    rcases List.eq_nil_or_concat post with rfl | ⟨post, last, rfl⟩
    · simp
    · rw [List.concat_eq_append, ← List.cons_append, ← List.append_assoc, List.getLast?_concat]
      simp only [List.append_assoc, List.cons_append, List.set_append_right _ _ (Nat.le_refl _),
        Nat.sub_self, List.set_cons_zero]
      rw [← List.cons_append, ← List.append_assoc, List.dropLast_concat]
      exact (List.perm_append_singleton last post).symm.append_left pre
  · have hidx : as.idxOf? a = none := by
      refine List.findIdx?_eq_none_iff.2 fun x hx => beq_eq_false_iff_ne.2 ?_
      rintro rfl
      exact ha hx
    rw [List.erase_of_not_mem ha, swapRemove, hidx]

theorem mem_swapRemove {α : Type} [DecidableEq α] {a x : α} {as : List α} (h : as.Nodup) :
    x ∈ swapRemove a as ↔ x ≠ a ∧ x ∈ as := by
  rw [(swapRemove_perm a as).mem_iff, h.mem_erase_iff]

theorem nodup_swapRemove {α : Type} [DecidableEq α] {as : List α} (h : as.Nodup) (a : α) :
    (swapRemove a as).Nodup :=
  (swapRemove_perm a as).nodup_iff.2 (h.erase a)

namespace Ledger
variable {l : Ledger} {s t : StorageRef} {b c : BlockRef}

/-- The records on the list of a volume, from head to tail; none if the list cannot be read. -/
def listed (l : Ledger) (s : StorageRef) : List BlockRef :=
  match (l.storage s).blockRefs with
  | .ok blocks => blocks
  | .error _ => []

/-- The records on the list of a volume, each after its id. -/
def row (l : Ledger) (s : StorageRef) : List (UInt64 × BlockRef) :=
  (l.listed s).map fun b => ((l.block b).block.id, b)

section record
variable {α γ : Type} [Inhabited α]

private theorem getD_modify (xs : Array α) {i : Nat} (hi : i < xs.size) (f : α → α) :
    (xs.modify i f)[i]?.getD default = f (xs[i]?.getD default) := by
  rw [Array.getElem?_modify, if_pos rfl, Array.getElem?_eq_getElem hi]
  rfl

private theorem getD_modify_of_ne (xs : Array α) {i j : Nat} (h : i ≠ j) (f : α → α) :
    (xs.modify i f)[j]?.getD default = xs[j]?.getD default := by
  rw [Array.getElem?_modify, if_neg h]

/-- What a change of one record leaves as it is reads the same in all of them. -/
private theorem getD_modify_congr (xs : Array α) (i : Nat) (f : α → α) (g : α → γ)
    (h : g (f (xs[i]?.getD default)) = g (xs[i]?.getD default)) (j : Nat) :
    g ((xs.modify i f)[j]?.getD default) = g (xs[j]?.getD default) := by
  by_cases hij : i = j
  · subst hij
    by_cases hi : i < xs.size
    · rw [getD_modify xs hi, h]
    · rw [Array.getElem?_eq_none (by rw [Array.size_modify]; omega), Array.getElem?_eq_none (by omega)]
  · rw [getD_modify_of_ne xs hij]

private theorem modify_congr (xs : Array α) (i : Nat) {f g : α → α}
    (h : f (xs[i]?.getD default) = g (xs[i]?.getD default)) : xs.modify i f = xs.modify i g := by
  refine Array.ext_getElem? fun j => ?_
  rw [Array.getElem?_modify, Array.getElem?_modify]
  by_cases hij : i = j
  · subst hij
    cases hx : xs[i]? with
    | none => rfl
    | some x =>
      rw [hx] at h
      rw [if_pos rfl, if_pos rfl]
      exact congrArg some h
  · rw [if_neg hij, if_neg hij]

end record

theorem storage_modifyStorage (hs : s.index < l.storages.size) (f : Storage → Storage) :
    (l.modifyStorage s f).storage s = f (l.storage s) :=
  getD_modify l.storages hs f

theorem storage_modifyStorage_of_ne (h : t ≠ s) (f : Storage → Storage) :
    (l.modifyStorage s f).storage t = l.storage t :=
  getD_modify_of_ne l.storages (fun he => h (congrArg StorageRef.mk he.symm)) f

theorem storage_modifyStorage_congr {γ : Type} (g : Storage → γ) {f : Storage → Storage}
    (h : g (f (l.storage s)) = g (l.storage s)) (t : StorageRef) :
    g ((l.modifyStorage s f).storage t) = g (l.storage t) :=
  getD_modify_congr l.storages s.index f g h t.index

theorem block_modifyBlock (hb : b.index < l.blocks.size) (f : BlockRecord → BlockRecord) :
    (l.modifyBlock b f).block b = f (l.block b) :=
  getD_modify l.blocks hb f

theorem block_modifyBlock_of_ne (h : c ≠ b) (f : BlockRecord → BlockRecord) :
    (l.modifyBlock b f).block c = l.block c :=
  getD_modify_of_ne l.blocks (fun he => h (congrArg BlockRef.mk he.symm)) f

theorem block_modifyBlock_congr {γ : Type} (g : BlockRecord → γ) {f : BlockRecord → BlockRecord}
    (h : g (f (l.block b)) = g (l.block b)) (c : BlockRef) :
    g ((l.modifyBlock b f).block c) = g (l.block c) :=
  getD_modify_congr l.blocks b.index f g h c.index

/-- Two changes of a block that do the same to it are the same change. -/
theorem modifyBlock_congr {f g : BlockRecord → BlockRecord} (h : f (l.block b) = g (l.block b)) :
    l.modifyBlock b f = l.modifyBlock b g :=
  congrArg (fun blocks => { l with blocks }) (modify_congr l.blocks b.index h)

theorem modifyNode_congr {n : NodeRef} {f g : Node → Node} (h : f (l.node n) = g (l.node n)) :
    l.modifyNode n f = l.modifyNode n g :=
  congrArg (fun nodes => { l with nodes }) (modify_congr l.nodes n.index h)

theorem storage_of_le {v : StorageRef} (hv : l.storages.size ≤ v.index) : l.storage v = default := by
  unfold storage
  rw [Array.getElem?_eq_none hv]
  rfl

theorem node_of_le {n : NodeRef} (hn : l.nodes.size ≤ n.index) : l.node n = default := by
  unfold node
  rw [Array.getElem?_eq_none hn]
  rfl

theorem coordinator_of_le {c : CoordinatorRef} (hc : l.coordinators.size ≤ c.index) :
    l.coordinator c = default := by
  unfold coordinator
  rw [Array.getElem?_eq_none hc]
  rfl

theorem node_modifyNode {n : NodeRef} (hn : n.index < l.nodes.size) (f : Node → Node) :
    (l.modifyNode n f).node n = f (l.node n) :=
  getD_modify l.nodes hn f

theorem node_modifyNode_of_ne {m n : NodeRef} (h : m ≠ n) (f : Node → Node) :
    (l.modifyNode n f).node m = l.node m :=
  getD_modify_of_ne l.nodes (fun he => h (congrArg NodeRef.mk he.symm)) f

/-- A change of one node leaves a node as it was, unless it is that node and is changed by it. -/
theorem node_modifyNode_cases (l : Ledger) (m n : NodeRef) (f : Node → Node) :
    (l.modifyNode m f).node n = l.node n ∨ n = m ∧ (l.modifyNode m f).node n = f (l.node m) := by
  by_cases hnm : n = m
  · subst hnm
    by_cases hn : n.index < l.nodes.size
    · exact .inr ⟨rfl, node_modifyNode hn f⟩
    · have hsize : (l.modifyNode n f).nodes.size = l.nodes.size := Array.size_modify
      refine .inl ?_
      rw [node_of_le (Nat.le_of_not_lt hn), node_of_le (hsize ▸ Nat.le_of_not_lt hn)]
  · exact .inl (node_modifyNode_of_ne hnm f)

theorem node_modifyNode_congr {γ : Type} {n : NodeRef} (g : Node → γ) {f : Node → Node}
    (h : g (f (l.node n)) = g (l.node n)) (m : NodeRef) :
    g ((l.modifyNode n f).node m) = g (l.node m) :=
  getD_modify_congr l.nodes n.index f g h m.index

theorem coordinator_modifyCoordinator {c : CoordinatorRef} (hc : c.index < l.coordinators.size)
    (f : Coordinator → Coordinator) : (l.modifyCoordinator c f).coordinator c = f (l.coordinator c) :=
  getD_modify l.coordinators hc f

theorem coordinator_modifyCoordinator_of_ne {c k : CoordinatorRef} (h : k ≠ c) (f : Coordinator → Coordinator) :
    (l.modifyCoordinator c f).coordinator k = l.coordinator k :=
  getD_modify_of_ne l.coordinators (fun he => h (congrArg CoordinatorRef.mk he.symm)) f

/-- A change of one coordinator leaves a coordinator as it was, unless it is that one and is changed by it. -/
theorem coordinator_modifyCoordinator_cases (l : Ledger) (c k : CoordinatorRef) (f : Coordinator → Coordinator) :
    (l.modifyCoordinator c f).coordinator k = l.coordinator k ∨
      k = c ∧ (l.modifyCoordinator c f).coordinator k = f (l.coordinator c) := by
  by_cases hk : k = c
  · subst hk
    by_cases hlt : k.index < l.coordinators.size
    · exact .inr ⟨rfl, coordinator_modifyCoordinator hlt f⟩
    · have hsize : (l.modifyCoordinator k f).coordinators.size = l.coordinators.size := Array.size_modify
      refine .inl ?_
      rw [coordinator_of_le (Nat.le_of_not_lt hlt), coordinator_of_le (hsize ▸ Nat.le_of_not_lt hlt)]
  · exact .inl (coordinator_modifyCoordinator_of_ne hk f)

theorem coordinator_modifyCoordinator_congr {γ : Type} {c : CoordinatorRef} (g : Coordinator → γ)
    {f : Coordinator → Coordinator} (h : g (f (l.coordinator c)) = g (l.coordinator c)) (k : CoordinatorRef) :
    g ((l.modifyCoordinator c f).coordinator k) = g (l.coordinator k) :=
  getD_modify_congr l.coordinators c.index f g h k.index

section list
variable {row : List (UInt64 × BlockRef)}

/-- A volume whose arena shows a row lists the records of that row. -/
theorem blockRefs_of_shows (h : (l.storage s).blocks.Shows [row]) :
    (l.storage s).blockRefs = .ok (row.map Prod.snd) := by
  have he : (l.storage s).blocks.entries Storage.blockList = .ok row := h.entries_eq rfl
  rw [Storage.blockRefs, he]
  rfl

theorem listed_of_shows (h : (l.storage s).blocks.Shows [row]) : l.listed s = row.map Prod.snd := by
  rw [listed, blockRefs_of_shows h]

theorem listed_of_layout {seats : List (Slab.Seat UInt64 BlockRef)} (h : (l.storage s).blocks.Layout [seats]) :
    l.listed s = seats.map Slab.Seat.value := by
  have hshows : (l.storage s).blocks.Shows [seats.map Slab.Seat.pair] := ⟨_, h, rfl⟩
  rw [listed_of_shows hshows, List.map_map]
  rfl

/-- A volume that has not been made lists nothing. -/
theorem lt_size_of_mem_listed (h : b ∈ l.listed s) : s.index < l.storages.size := by
  by_cases hs : s.index < l.storages.size
  · exact hs
  · have hnone : l.storage s = default := by
      unfold storage
      rw [Array.getElem?_eq_none (Nat.le_of_not_lt hs)]
      rfl
    unfold listed at h
    rw [hnone] at h
    exact (List.not_mem_nil h).elim

/-- The list of a volume is read off its arena alone. -/
theorem listed_congr {l' : Ledger} (h : (l'.storage s).blocks = (l.storage s).blocks) :
    l'.listed s = l.listed s := by
  unfold listed Storage.blockRefs
  rw [h]

end list
end Ledger
end DatanodeLedger
