import DatanodeLedger.Proofs.Membership.Coherent

/-! The single changes of a ledger that leave membership alone. What they have to obey is that no
volume that is gone is taken up again. -/
namespace DatanodeLedger.Ledger
variable {l l' : Ledger} {s : StorageRef} {n : NodeRef}

theorem keeps_iff : l.keeps n s = true ↔
    s ∈ (l.node n).storages.values ∨ ∃ t ∈ (l.node n).transfers.items, s ∈ t.targets := by
  simp only [keeps, Bool.or_eq_true, List.contains_iff_mem, List.any_eq_true]

theorem isLive_iff : l.isLive s = true ↔
    (∃ n ∈ l.heldNodes, l.keeps n s = true) ∨ ∃ c ∈ l.cursors.toList, c.any (·.storage == s) = true := by
  simp only [isLive, Bool.or_eq_true, List.any_eq_true]

theorem mem_heldNodes : n ∈ l.heldNodes ↔
    n ∈ l.pins ∨ ∃ c ∈ l.coordinators.toList, n ∈ c.nodes.values := by
  simp only [heldNodes, List.mem_append, List.mem_flatMap]

/-- The nodes of a coordinator are held. -/
theorem mem_heldNodes_of_find? {c : CoordinatorRef} {uuid : String}
    (h : (l.coordinator c).nodes.find? uuid = some n) : n ∈ l.heldNodes := by
  refine mem_heldNodes.2 (.inr ⟨l.coordinator c, ?_, Table.mem_values_of_find? h⟩)
  unfold coordinator at h ⊢
  cases hc : l.coordinators[c.index]? with
  | none =>
    rw [hc] at h
    cases h
  | some k => exact Array.mem_toList_iff.2 (Array.mem_of_getElem? hc)

theorem isLive_of_keeps (hn : n ∈ l.heldNodes) (hs : l.keeps n s = true) : l.isLive s = true :=
  isLive_iff.2 (.inl ⟨n, hn, hs⟩)

/-- The volumes of a node that is held are live. -/
theorem isLive_of_mem (hn : n ∈ l.heldNodes) (hs : s ∈ (l.node n).storages.values) :
    l.isLive s = true :=
  isLive_of_keeps hn (keeps_iff.2 (.inl hs))

theorem isLive_of_storageOf? {id : String} (hn : n ∈ l.heldNodes) (h : l.storageOf? n id = some s) :
    l.isLive s = true := by
  exact isLive_of_mem hn (Table.mem_values_of_find? h)

theorem mem_modify {α : Type} [Inhabited α] {xs : Array α} {i : Nat} {f : α → α} {x : α}
    (h : x ∈ (xs.modify i f).toList) :
    x ∈ xs.toList ∨ xs[i]?.getD default ∈ xs.toList ∧ x = f (xs[i]?.getD default) := by
  obtain ⟨j, hj⟩ := List.getElem?_of_mem h
  rw [Array.getElem?_toList, Array.getElem?_modify] at hj
  by_cases hij : i = j
  · rw [if_pos hij] at hj
    obtain ⟨y, hy, rfl⟩ := Option.map_eq_some_iff.1 hj
    rw [hij, hy]
    exact .inr ⟨Array.mem_toList_iff.2 (Array.mem_of_getElem? hy), rfl⟩
  · rw [if_neg hij] at hj
    exact .inl (Array.mem_toList_iff.2 (Array.mem_of_getElem? hj))

/-- Blocks and volumes are the same records, and what is live now was live before. -/
theorem quiet_of_eq (hblocks : l'.blocks = l.blocks) (hstorages : l'.storages = l.storages)
    (hlive : ∀ s, l'.isLive s = true → l.isLive s = true) (howned : l.Owned → l'.Owned) : l.Quiet l' := by
  have hblock : ∀ b, l'.block b = l.block b := by
    intro b
    unfold block
    rw [hblocks]
  have hstorage : ∀ s, l'.storage s = l.storage s := by
    intro s
    unfold storage
    rw [hstorages]
  exact ⟨⟨Nat.le_of_eq (congrArg Array.size hblocks.symm), Nat.le_of_eq (congrArg Array.size hstorages.symm),
    fun b _ => congrArg BlockRecord.block (hblock b), fun s _ => congrArg Storage.owner (hstorage s),
    fun s _ => hlive s, howned⟩, fun s => congrArg Storage.blocks (hstorage s),
    fun b => congrArg BlockRecord.holders (hblock b)⟩

/-- Of the nodes nothing but their holding has changed. -/
theorem quiet_of_held (hblocks : l'.blocks = l.blocks) (hstorages : l'.storages = l.storages)
    (hnodes : l'.nodes = l.nodes) (hcursors : l'.cursors = l.cursors)
    (hheld : ∀ n ∈ l'.heldNodes, n ∈ l.heldNodes ∨ ∀ s, l.keeps n s = true → l.isLive s = true) :
    l.Quiet l' := by
  have hnode : ∀ n, l'.node n = l.node n := by
    intro n
    unfold node
    rw [hnodes]
  refine quiet_of_eq hblocks hstorages (fun s hs => ?_) fun ho n s hs => ?_
  · rcases isLive_iff.1 hs with ⟨n, hn, hk⟩ | hc
    · have hk' : l.keeps n s = true := by
        rw [keeps_iff, hnode n] at hk
        exact keeps_iff.2 hk
      rcases hheld n hn with hn | hn
      · exact isLive_of_keeps hn hk'
      · exact hn s hk'
    · exact isLive_iff.2 (.inr (hcursors ▸ hc))
  · have howns := ho n s (hnode n ▸ hs)
    unfold storage
    rw [hstorages, hnode n]
    exact howns

theorem quiet_modifyNode {f : Node → Node} (huuid : (f (l.node n)).uuid = (l.node n).uuid)
    (hstorages : (f (l.node n)).storages = (l.node n).storages)
    (htransfers : ∀ t ∈ (f (l.node n)).transfers.items,
      t ∈ (l.node n).transfers.items ∨ ∀ s ∈ t.targets, l.isLive s = true) :
    l.Quiet (l.modifyNode n f) := by
  refine quiet_of_eq rfl rfl (fun s hs => ?_) fun ho m s hs => ?_
  · rcases isLive_iff.1 hs with ⟨m, hm, hk⟩ | hc
    · have hm' : m ∈ l.heldNodes := hm
      rw [keeps_iff, node_modifyNode_congr Node.storages hstorages] at hk
      rcases hk with hk | ⟨t, ht, hst⟩
      · exact isLive_of_mem hm' hk
      · rcases node_modifyNode_cases l n m f with hsame | ⟨rfl, hchanged⟩
        · rw [hsame] at ht
          exact isLive_of_keeps hm' (keeps_iff.2 (.inr ⟨t, ht, hst⟩))
        · rw [hchanged] at ht
          rcases htransfers t ht with ht | ht
          · exact isLive_of_keeps hm' (keeps_iff.2 (.inr ⟨t, ht, hst⟩))
          · exact ht s hst
    · exact isLive_iff.2 (.inr hc)
  · rw [node_modifyNode_congr Node.storages hstorages] at hs
    rw [node_modifyNode_congr Node.uuid huuid]
    exact ho m s hs

theorem alike_modifyLock (r : LockRef) (f : NamespaceLock → NamespaceLock) :
    l.Alike (l.modifyLock r f) :=
  ⟨rfl, rfl, fun _ => rfl, rfl, fun _ _ => rfl, fun _ => rfl, fun _ => rfl⟩

theorem alike_lock (n : NodeRef) (lock : Option LockRef) :
    l.Alike (l.modifyNode n fun node => { node with lock }) := by
  have hstorages : ∀ m, ((l.modifyNode n fun node => { node with lock }).node m).storages =
      (l.node m).storages := node_modifyNode_congr Node.storages rfl
  have htransfers : ∀ m, ((l.modifyNode n fun node => { node with lock }).node m).transfers =
      (l.node m).transfers := node_modifyNode_congr Node.transfers rfl
  have hkeeps : ∀ m s, (l.modifyNode n fun node => { node with lock }).keeps m s = l.keeps m s := by
    intro m s
    unfold keeps
    rw [hstorages m, htransfers m]
  refine ⟨rfl, rfl, fun s => ?_, rfl, hkeeps, hstorages, node_modifyNode_congr Node.uuid rfl⟩
  unfold isLive
  simp only [hkeeps]
  rfl

theorem quiet_modifyStorage {f : Storage → Storage}
    (hblocks : (f (l.storage s)).blocks = (l.storage s).blocks)
    (howner : (f (l.storage s)).owner = (l.storage s).owner) : l.Quiet (l.modifyStorage s f) where
  blocks := Nat.le_refl _
  storages := Nat.le_of_eq (Array.size_modify ..).symm
  block _ _ := rfl
  owner t _ := storage_modifyStorage_congr Storage.owner howner t
  live _ _ hs := hs
  owned ho n t ht := by
    obtain ⟨hlt, hown⟩ := ho n t ht
    exact ⟨Nat.lt_of_lt_of_eq hlt (Array.size_modify ..).symm,
      (storage_modifyStorage_congr Storage.owner howner t).trans hown⟩
  lists t := storage_modifyStorage_congr Storage.blocks hblocks t
  holders _ := rfl

section heldNodes
variable {m : NodeRef}

/-- A coordinator that changes may come to hold the nodes it has afterwards. -/
theorem mem_heldNodes_modifyCoordinator {c : CoordinatorRef} {f : Coordinator → Coordinator}
    (h : n ∈ (l.modifyCoordinator c f).heldNodes) : n ∈ l.heldNodes ∨
      l.coordinator c ∈ l.coordinators.toList ∧ n ∈ (f (l.coordinator c)).nodes.values := by
  rcases mem_heldNodes.1 h with hn | ⟨k, hk, hn⟩
  · exact .inl (mem_heldNodes.2 (.inl hn))
  · rcases mem_modify hk with hk | ⟨hc, rfl⟩
    · exact .inl (mem_heldNodes.2 (.inr ⟨k, hk, hn⟩))
    · exact .inr ⟨hc, hn⟩

theorem mem_heldNodes_addCoordinator {limits : Limits} (h : n ∈ (l.addCoordinator limits).2.heldNodes) :
    n ∈ l.heldNodes := by
  rcases mem_heldNodes.1 h with hn | ⟨k, hk, hn⟩
  · exact mem_heldNodes.2 (.inl hn)
  · unfold addCoordinator at hk
    rw [Array.toList_push] at hk
    rcases List.mem_append.1 hk with hk | hk
    · exact mem_heldNodes.2 (.inr ⟨k, hk, hn⟩)
    · rw [List.mem_singleton.1 hk] at hn
      exact (List.not_mem_nil hn).elim

theorem mem_heldNodes_pin (h : m ∈ (l.pin n).heldNodes) : m = n ∨ m ∈ l.heldNodes := by
  rcases mem_heldNodes.1 h with hm | hm
  · rcases List.mem_cons.1 hm with rfl | hm
    · exact .inl rfl
    · exact .inr (mem_heldNodes.2 (.inl hm))
  · exact .inr (mem_heldNodes.2 (.inr hm))

theorem mem_heldNodes_unpin (h : m ∈ (l.unpin n).heldNodes) : m ∈ l.heldNodes := by
  rcases mem_heldNodes.1 h with hm | hm
  · exact mem_heldNodes.2 (.inl (List.mem_of_mem_erase hm))
  · exact mem_heldNodes.2 (.inr hm)

end heldNodes

end DatanodeLedger.Ledger
