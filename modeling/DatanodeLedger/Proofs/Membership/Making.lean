import DatanodeLedger.Proofs.Membership.Quiet

/-! New records, and cursors. A record that is made is neither on a list nor referred to, and a volume
that is made was not there before. -/
namespace DatanodeLedger.Ledger
variable {l : Ledger} {s : StorageRef} {n : NodeRef}

theorem quiet_addBlock (l : Ledger) {record : BlockRecord} (h : record.holders = []) :
    l.Quiet (l.addBlock record).2 where
  blocks := by
    rw [show (l.addBlock record).2.blocks.size = l.blocks.size + 1 from Array.size_push ..]
    exact Nat.le_succ _
  storages := Nat.le_refl _
  block b hb := by
    unfold block addBlock
    rw [Array.getElem?_push_lt hb, Array.getElem?_eq_getElem hb]
  owner _ _ := rfl
  live _ _ hs := hs
  owned ho := ho
  lists _ := rfl
  holders b := by
    unfold block addBlock
    rw [Array.getElem?_push]
    by_cases hb : b.index = l.blocks.size
    · rw [if_pos hb, hb, Array.getElem?_eq_none (Nat.le_refl _)]
      exact h
    · rw [if_neg hb]

section addNode
variable (l : Ledger) {node : Node} (hstorages : node.storages.values = [])
  (htransfers : node.transfers.items = [])

theorem node_addNode_cases (l : Ledger) (node : Node) (m : NodeRef) :
    (l.addNode node).2.node m = l.node m ∨
      m.index = l.nodes.size ∧ (l.addNode node).2.node m = node := by
  unfold Ledger.node addNode
  rw [Array.getElem?_push]
  by_cases hm : m.index = l.nodes.size
  · rw [if_pos hm]
    exact .inr ⟨hm, rfl⟩
  · rw [if_neg hm]
    exact .inl rfl

theorem size_addNode (l : Ledger) (node : Node) : (l.addNode node).2.nodes.size = l.nodes.size + 1 :=
  Array.size_push ..

theorem node_addNode_self (l : Ledger) (node : Node) : (l.addNode node).2.node ⟨l.nodes.size⟩ = node := by
  unfold Ledger.node addNode
  rw [Array.getElem?_push, if_pos rfl]
  rfl

include hstorages htransfers

private theorem keeps_addNode {m : NodeRef} (h : (l.addNode node).2.keeps m s = true) :
    l.keeps m s = true := by
  rw [keeps_iff] at h ⊢
  rcases node_addNode_cases l node m with hm | ⟨-, hm⟩
  · rw [hm] at h
    exact h
  · rw [hm, hstorages, htransfers] at h
    simp at h

/-- A node that is new keeps nothing, even if someone should hold its name already. -/
theorem keeps_new : (l.addNode node).2.keeps ⟨l.nodes.size⟩ s = false := by
  refine Bool.eq_false_iff.2 fun h => ?_
  rw [keeps_iff, node_addNode_self, hstorages, htransfers] at h
  simp at h

theorem quiet_addNode : l.Quiet (l.addNode node).2 := by
  refine quiet_of_eq rfl rfl (fun s hs => ?_) fun ho m s hs => ?_
  · rcases isLive_iff.1 hs with ⟨m, hm, hk⟩ | hc
    · exact isLive_of_keeps hm (keeps_addNode l hstorages htransfers hk)
    · exact isLive_iff.2 (.inr hc)
  · rcases node_addNode_cases l node m with hm | ⟨-, hm⟩
    · rw [hm] at hs ⊢
      exact ho m s hs
    · rw [hm, hstorages] at hs
      exact (List.not_mem_nil hs).elim

end addNode

/-- The ledger with a record for an announced volume of a node. -/
def announce (l : Ledger) (n : NodeRef) (a : Announcement) : Ledger :=
  (l.addStorage (.announced (l.node n).uuid a)).2.modifyNode n fun node =>
    { node with storages := node.storages.insert a.id ⟨l.storages.size⟩ }

section announce
variable {a : Announcement}

theorem size_announce : (l.announce n a).storages.size = l.storages.size + 1 := Array.size_push ..

theorem storage_announce (hs : s.index < l.storages.size) : (l.announce n a).storage s = l.storage s := by
  unfold storage announce modifyNode addStorage
  rw [Array.getElem?_push_lt hs, Array.getElem?_eq_getElem hs]

theorem storage_announce_self :
    (l.announce n a).storage ⟨l.storages.size⟩ = .announced (l.node n).uuid a := by
  unfold storage announce modifyNode addStorage
  rw [Array.getElem?_push, if_pos rfl]
  rfl

theorem node_announce_of_ne {m : NodeRef} (hm : m ≠ n) : (l.announce n a).node m = l.node m :=
  node_modifyNode_of_ne (l := (l.addStorage (.announced (l.node n).uuid a)).2) hm _

theorem node_announce_self (hn : n.index < l.nodes.size) : (l.announce n a).node n =
    { l.node n with storages := (l.node n).storages.insert a.id ⟨l.storages.size⟩ } :=
  node_modifyNode (l := (l.addStorage (.announced (l.node n).uuid a)).2) hn _

/-- Nothing is announced to a node that has not been made. -/
theorem node_announce_of_le (hn : l.nodes.size ≤ n.index) : (l.announce n a).node n = l.node n := by
  unfold node announce modifyNode addStorage
  rw [Array.getElem?_eq_none (by rw [Array.size_modify]; exact hn), Array.getElem?_eq_none hn]

section fresh
variable (h : l.storageOf? n a.id = none)
include h

/-- A volume that is new to its node comes last in the table of that node, and no other table changes. -/
theorem entries_announce_cases (m : NodeRef) :
    ((l.announce n a).node m).storages.entries = (l.node m).storages.entries ∨
      m = n ∧ ((l.announce n a).node m).storages.entries =
        (l.node m).storages.entries ++ [(a.id, ⟨l.storages.size⟩)] := by
  by_cases hm : m = n
  · subst hm
    by_cases hlt : m.index < l.nodes.size
    · rw [node_announce_self hlt]
      exact .inr ⟨rfl, Table.entries_insert_of_find? h _⟩
    · rw [node_announce_of_le (Nat.le_of_not_lt hlt)]
      exact .inl rfl
  · rw [node_announce_of_ne hm]
    exact .inl rfl

theorem mem_values_announce {m : NodeRef} (hs : s ∈ ((l.announce n a).node m).storages.values) :
    s ∈ (l.node m).storages.values ∨ m = n ∧ s = ⟨l.storages.size⟩ := by
  unfold Table.values at hs ⊢
  rcases entries_announce_cases h m with hm | ⟨rfl, hm⟩
  · rw [hm] at hs
    exact .inl hs
  · rw [hm, List.map_append, List.mem_append] at hs
    rcases hs with hs | hs
    · exact .inl hs
    · exact .inr ⟨rfl, List.mem_singleton.1 hs⟩

end fresh
end announce

/-- A new volume has an empty list, and it was not there before, so that it has not come back. -/
theorem quiet_announce {a : Announcement} (h : l.storageOf? n a.id = none) : l.Quiet (l.announce n a) := by
  have hsize : (l.announce n a).storages.size = l.storages.size + 1 := size_announce
  have huuid : ∀ m, ((l.announce n a).node m).uuid = (l.node m).uuid :=
    fun m => node_modifyNode_congr (l := (l.addStorage (.announced (l.node n).uuid a)).2) Node.uuid rfl m
  have htransfers : ∀ m, ((l.announce n a).node m).transfers = (l.node m).transfers :=
    fun m => node_modifyNode_congr (l := (l.addStorage (.announced (l.node n).uuid a)).2) Node.transfers rfl m
  refine ⟨⟨Nat.le_refl _, hsize ▸ Nat.le_succ _, fun _ _ => rfl, fun s hs => by rw [storage_announce hs], ?_, ?_⟩,
    fun s => ?_, fun _ => rfl⟩
  · intro s hs hlive
    rcases isLive_iff.1 hlive with ⟨m, hm, hk⟩ | hc
    · refine isLive_of_keeps hm (keeps_iff.2 ?_)
      rw [keeps_iff, htransfers m] at hk
      rcases hk with hk | hk
      · rcases mem_values_announce h hk with hk | ⟨-, rfl⟩
        · exact .inl hk
        · exact (Nat.lt_irrefl _ hs).elim
      · exact .inr hk
    · exact isLive_iff.2 (.inr hc)
  · intro ho m s hs
    rw [hsize, huuid m]
    rcases mem_values_announce h hs with hs | ⟨rfl, rfl⟩
    · obtain ⟨hlt, hown⟩ := ho m s hs
      rw [storage_announce hlt]
      exact ⟨Nat.lt_succ_of_lt hlt, hown⟩
    · rw [storage_announce_self]
      exact ⟨Nat.lt_succ_self _, rfl⟩
  · rcases Nat.lt_trichotomy s.index l.storages.size with hs | hs | hs
    · rw [storage_announce hs]
    · have hs' : s = ⟨l.storages.size⟩ := congrArg StorageRef.mk hs
      rw [hs', storage_announce_self]
      unfold storage
      rw [Array.getElem?_eq_none (Nat.le_refl _)]
      rfl
    · unfold storage
      rw [Array.getElem?_eq_none (by omega), Array.getElem?_eq_none (by omega)]

/-- Cursors that are new stand on volumes that are live. -/
theorem quiet_of_cursors {cursors : Array (Option Cursor)}
    (h : ∀ c, some c ∈ cursors.toList → some c ∈ l.cursors.toList ∨ l.isLive c.storage = true) :
    l.Quiet { l with cursors } := by
  refine quiet_of_eq rfl rfl (fun s hs => ?_) fun ho => ho
  rcases isLive_iff.1 hs with hn | ⟨c, hc, hcs⟩
  · exact isLive_iff.2 (.inl hn)
  · cases c with
    | none => exact (Bool.false_ne_true hcs).elim
    | some c =>
      rcases h c hc with hc | hlive
      · exact isLive_iff.2 (.inr ⟨some c, hc, hcs⟩)
      · exact eq_of_beq hcs ▸ hlive

end DatanodeLedger.Ledger
