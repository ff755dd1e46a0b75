import DatanodeLedger.Proofs.Run.Frame

/-! The tables of the nodes are in order on every service that steps lead to: who is held has been made,
every volume is entered once and under its own name, and no two nodes share one. -/
namespace DatanodeLedger

namespace Ledger
variable {l l' : Ledger} {n : NodeRef}

structure Orderly (l : Ledger) : Prop where
  held : ∀ n ∈ l.heldNodes, n.index < l.nodes.size
  keys : ∀ n, (l.node n).storages.keys.Nodup
  made : ∀ n, ∀ v ∈ (l.node n).storages.values, v.index < l.storages.size
  named : ∀ n id v, (id, v) ∈ (l.node n).storages.entries → (l.storage v).id = id
  apart : ∀ m n v, v ∈ (l.node m).storages.values → v ∈ (l.node n).storages.values → m = n

/-- As long as nodes keep their tables and volumes their names, only who is held is in question. -/
theorem Orderly.of_tables (h : l.Orderly) (held : ∀ n ∈ l'.heldNodes, n.index < l'.nodes.size)
    (tables : ∀ n, (l'.node n).storages = (l.node n).storages)
    (size : l.storages.size ≤ l'.storages.size)
    (id : ∀ v, v.index < l.storages.size → (l'.storage v).id = (l.storage v).id) : l'.Orderly where
  held := held
  keys n := tables n ▸ h.keys n
  made n v hv := Nat.lt_of_lt_of_le (h.made n v (tables n ▸ hv)) size
  named n i v he := by
    rw [tables n] at he
    exact (id v (h.made n v (List.mem_map_of_mem he))).trans (h.named n i v he)
  apart m n v hm hn := h.apart m n v (tables m ▸ hm) (tables n ▸ hn)

/-- Nodes and volumes are the same records, and who is held now was held before or has been made. -/
theorem Orderly.of_hands (h : l.Orderly) (nodes : l'.nodes = l.nodes) (storages : l'.storages = l.storages)
    (held : ∀ n ∈ l'.heldNodes, n ∈ l.heldNodes ∨ n.index < l.nodes.size) : l'.Orderly := by
  have hnode : ∀ n, l'.node n = l.node n := fun n => by unfold node; rw [nodes]
  have hstorage : ∀ v, l'.storage v = l.storage v := fun v => by unfold storage; rw [storages]
  refine h.of_tables (fun n hn => ?_) (fun n => congrArg Node.storages (hnode n))
    (Nat.le_of_eq (congrArg Array.size storages.symm)) fun v _ => congrArg Storage.id (hstorage v)
  rw [nodes]
  exact (held n hn).elim (h.held n) id

theorem Orderly.of_eq (h : l.Orderly) (nodes : l'.nodes = l.nodes) (storages : l'.storages = l.storages)
    (held : ∀ n ∈ l'.heldNodes, n ∈ l.heldNodes) : l'.Orderly :=
  h.of_hands nodes storages fun n hn => .inl (held n hn)

theorem Orderly.modifyNode (h : l.Orderly) {f : Node → Node}
    (hf : (f (l.node n)).storages = (l.node n).storages) : (l.modifyNode n f).Orderly := by
  refine h.of_tables (fun m hm => ?_) (node_modifyNode_congr Node.storages hf) (Nat.le_refl _) fun _ _ => rfl
  have hsize : (l.modifyNode n f).nodes.size = l.nodes.size := Array.size_modify ..
  rw [hsize]
  exact h.held m hm

theorem Orderly.modifyStorage (h : l.Orderly) {v : StorageRef} {f : Storage → Storage}
    (hf : (f (l.storage v)).id = (l.storage v).id) : (l.modifyStorage v f).Orderly :=
  h.of_tables h.held (fun _ => rfl) (Nat.le_of_eq (Array.size_modify ..).symm)
    fun v _ => storage_modifyStorage_congr Storage.id hf v

theorem Orderly.rewrite (h : l.Orderly) (v : StorageRef) (b : BlockRef) (blocks : Slab UInt64 BlockRef)
    (holders : List StorageRef) : (l.rewrite v b blocks holders).Orderly :=
  (h.modifyStorage (v := v) (f := fun storage => { storage with blocks }) rfl).of_eq rfl rfl fun _ hn => hn

/-- A node that is new has no volumes yet. -/
theorem Orderly.addNode (h : l.Orderly) {node : Node} (hnode : node.storages = {}) :
    (l.addNode node).2.Orderly := by
  have htables : ∀ m, ((l.addNode node).2.node m).storages = (l.node m).storages := by
    intro m
    rcases node_addNode_cases l node m with hm | ⟨hnew, hm⟩
    · rw [hm]
    · rw [hm, hnode, node_of_le (Nat.le_of_eq hnew.symm)]
      rfl
  refine h.of_tables (fun m hm => ?_) htables (Nat.le_refl _) fun _ _ => rfl
  rw [size_addNode]
  exact Nat.lt_succ_of_lt (h.held m hm)

/-- A volume that is new is on no table, and its id was not on the table that it is entered in. -/
theorem Orderly.announce (h : l.Orderly) {a : Announcement} (ha : l.storageOf? n a.id = none) :
    (l.announce n a).Orderly where
  held m hm := by
    have hsize : (l.announce n a).nodes.size = l.nodes.size := Array.size_modify ..
    rw [hsize]
    exact h.held m hm
  keys m := by
    unfold Table.keys
    rcases entries_announce_cases ha m with hm | ⟨rfl, hm⟩
    · rw [hm]
      exact h.keys m
    · rw [hm, List.map_append]
      refine List.nodup_append.2 ⟨h.keys m, List.nodup_singleton _, fun k hk j hj => ?_⟩
      rw [List.mem_singleton.1 hj]
      rintro rfl
      exact Table.find?_eq_none_iff.1 ha hk
  made m v hv := by
    rw [size_announce]
    rcases mem_values_announce ha hv with hv | ⟨-, rfl⟩
    · exact Nat.lt_succ_of_lt (h.made m v hv)
    · exact Nat.lt_succ_self _
  named m id v he := by
    have hold : (id, v) ∈ (l.node m).storages.entries → ((l.announce n a).storage v).id = id := by
      intro he
      rw [storage_announce (h.made m v (List.mem_map_of_mem he))]
      exact h.named m id v he
    rcases entries_announce_cases ha m with hm | ⟨rfl, hm⟩
    · rw [hm] at he
      exact hold he
    · rw [hm, List.mem_append] at he
      rcases he with he | he
      · exact hold he
      · cases List.mem_singleton.1 he
        rw [storage_announce_self]
        rfl
  apart m m' v hv hv' := by
    have hfresh : ∀ m, (⟨l.storages.size⟩ : StorageRef) ∉ (l.node m).storages.values :=
      fun m hm => Nat.lt_irrefl _ (h.made m _ hm)
    rcases mem_values_announce ha hv with hm | ⟨rfl, rfl⟩
    · rcases mem_values_announce ha hv' with hm' | ⟨rfl, rfl⟩
      · exact h.apart m m' v hm hm'
      · exact (hfresh m hm).elim
    · rcases mem_values_announce ha hv' with hm' | ⟨rfl, -⟩
      · exact (hfresh m' hm').elim
      · rfl

theorem orderly_start (clock : Int) : Orderly { clock } where
  held _ hn := (List.not_mem_nil hn).elim
  keys _ := List.nodup_nil
  made _ _ hv := (List.not_mem_nil hv).elim
  named _ _ _ he := (List.not_mem_nil he).elim
  apart _ _ _ hv _ := (List.not_mem_nil hv).elim

/-- The tables are in order afterwards if they were before. -/
def KeepsOrder (l l' : Ledger) : Prop := l.Orderly → l'.Orderly

instance : IsPreorder Ledger KeepsOrder where
  refl _ h := h
  trans _ _ _ h h' hl := h' (h hl)

instance : Request.WorkFrame KeepsOrder where
  node hf h := h.modifyNode hf.storages
  storage hf h := h.modifyStorage hf.id
  hands nodes storages _ _ _ held h := h.of_hands nodes storages fun n hn => (held n hn).imp_right And.left
  block _ _ _ h := h.of_eq rfl rfl fun _ hn => hn
  newNode _ _ _ h := h.addNode rfl
  announce ha h := h.announce ha
  cursors _ h := h.of_eq rfl rfl fun _ hn => hn
  work _ _ _ hf h := h.modifyNode hf.storages

private theorem keepsOrder_rewrite (l : Ledger) (v : StorageRef) (b : BlockRef)
    (blocks : Slab UInt64 BlockRef) (holders : List StorageRef) :
    KeepsOrder l (l.rewrite v b blocks holders) :=
  fun hl => hl.rewrite v b blocks holders

end Ledger

theorem Step.keepsOrder_after {s : Service} (step : Step) (h : step.Enabled s.ledger) :
    s.ledger.KeepsOrder (step.after s).ledger :=
  step.respects_after (Request.rel_detach Ledger.keepsOrder_rewrite)
    (fun _ => Request.rel_attach Ledger.keepsOrder_rewrite) (fun n _ => Request.WorkFrame.work n) h

theorem Reachable.orderly {s : Service} (h : Reachable s) : s.ledger.Orderly :=
  h.induct Ledger.orderly_start fun _ step hl hstep => step.keepsOrder_after hstep hl

end DatanodeLedger
