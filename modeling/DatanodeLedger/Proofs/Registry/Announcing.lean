import DatanodeLedger.Proofs.Registry.Outcomes

/-! What announcements make of the volumes of a node. A volume is entered when its id is announced for the first time,
and stays that record; later announcements of the id set its state, and nothing else changes. -/
namespace DatanodeLedger

/-- The state that announcements leave a volume in: that of the last one which names its id. -/
def Announcement.lastState (storages : List Announcement) (id : String) (state : StorageState) : StorageState :=
  storages.foldl (fun state a => if a.id = id then a.state else state) state

namespace Announcement
variable {storages : List Announcement} {id : String} {state : StorageState}

theorem lastState_append (storages later : List Announcement) (id : String) (state : StorageState) :
    lastState (storages ++ later) id state = lastState later id (lastState storages id state) := List.foldl_append

theorem lastState_of_ne (h : ∀ a ∈ storages, a.id ≠ id) : lastState storages id state = state := by
  induction storages with
  | nil => rfl
  | cons a storages ih =>
    have hcons : lastState (a :: storages) id state = lastState storages id (if a.id = id then a.state else state) := rfl
    rw [hcons, if_neg (h a List.mem_cons_self)]
    exact ih fun b hb => h b (List.mem_cons_of_mem a hb)

/-- Announced once more, a volume is in the state that it is in. -/
theorem lastState_lastState (storages : List Announcement) (id : String) (state : StorageState) :
    lastState storages id (lastState storages id state) = lastState storages id state := by
  induction storages using List.reverseRecOn with
  | nil => rfl
  | append_singleton storages a ih =>
    have hlast : ∀ state, lastState (storages ++ [a]) id state =
        if a.id = id then a.state else lastState storages id state := lastState_append storages [a] id
    simp only [hlast]
    split
    case isTrue => rfl
    case isFalse => exact ih

end Announcement
open Announcement (lastState lastState_append lastState_of_ne)

namespace Ledger
variable {l l₁ l' : Ledger} {n : NodeRef} {storages later : List Announcement}

/-- What announcements enter in the table of a node: a record for each id that is new, as it is announced first, and in
the state in which it is announced last. -/
structure Entered (n : NodeRef) (storages : List Announcement) (l l' : Ledger) : Prop where
  nodes : l'.nodes.size = l.nodes.size
  others : ∀ m, m ≠ n → l'.node m = l.node m
  kept : (l.node n).storages.entries <+: (l'.node n).storages.entries
  keys : ∀ id, id ∈ (l'.node n).storages.keys ↔ id ∈ (l.node n).storages.keys ∨ ∃ a ∈ storages, a.id = id
  size : l'.storages.size + (l.node n).storages.size = l.storages.size + (l'.node n).storages.size
  apart : ∀ v : StorageRef, v.index < l.storages.size → v ∉ (l.node n).storages.values → l'.storage v = l.storage v
  fresh : ∀ id v, (id, v) ∈ (l'.node n).storages.entries → (id, v) ∈ (l.node n).storages.entries ∨
    id ∉ (l.node n).storages.keys ∧ l.storages.size ≤ v.index ∧ ∃ a, storages.find? (fun a => a.id = id) = some a ∧
      l'.storage v = { Storage.announced (l.node n).uuid a with state := lastState storages id a.state }

namespace Entered

theorem keys_subset (h : l.Entered n storages l') : (l.node n).storages.keys ⊆ (l'.node n).storages.keys :=
  fun id hid => (h.keys id).2 (.inl hid)

theorem le_size (h : l.Entered n storages l') : l.storages.size ≤ l'.storages.size := by
  have hkept : (l.node n).storages.size ≤ (l'.node n).storages.size := h.kept.length_le
  have hsize := h.size
  omega

/-- Of the volumes that are there afterwards, those that had been made were there before. -/
theorem mem_values (h : l.Entered n storages l') {v : StorageRef} (hv : v ∈ (l'.node n).storages.values)
    (hlt : v.index < l.storages.size) : v ∈ (l.node n).storages.values := by
  obtain ⟨⟨id, v⟩, he, rfl⟩ := List.mem_map.1 hv
  rcases h.fresh id v he with hold | ⟨-, hle, -⟩
  · exact List.mem_map_of_mem hold
  · exact (Nat.not_le_of_lt hlt hle).elim

end Entered

/-- What announcements of a node come to. -/
structure Announced (n : NodeRef) (storages : List Announcement) (l l' : Ledger) : Prop
    extends l.Entered n storages l' where
  rest : l' = { l with nodes := l'.nodes, storages := l'.storages }
  node : l'.node n = { l.node n with storages := (l'.node n).storages }
  old : ∀ id v, (id, v) ∈ (l.node n).storages.entries →
    l'.storage v = { l.storage v with state := lastState storages id (l.storage v).state }

namespace Announced

theorem nil (l : Ledger) (n : NodeRef) : l.Announced n [] l where
  nodes := rfl
  others _ _ := rfl
  kept := List.prefix_rfl
  keys _ := (or_iff_left fun ⟨_, ha, _⟩ => List.not_mem_nil ha).symm
  size := rfl
  apart _ _ _ := rfl
  fresh _ _ h := .inl h
  rest := rfl
  node := rfl
  old _ _ _ := rfl

theorem uuid (h : l.Announced n storages l') : (l'.node n).uuid = (l.node n).uuid := by
  rw [h.node]

theorem trans (h : l.Announced n storages l₁) (h' : l₁.Announced n later l') :
    l.Announced n (storages ++ later) l' where
  rest := by
    rw [h'.rest, h.rest]
  nodes := h'.nodes.trans h.nodes
  others m hm := (h'.others m hm).trans (h.others m hm)
  node := by
    rw [h'.node, h.node]
  kept := h.kept.trans h'.kept
  keys id := by
    simp only [h'.keys, h.keys, or_assoc, List.mem_append, or_and_right, exists_or]
  size := by
    have := h.size
    have := h'.size
    omega
  old id v he := by
    rw [h'.old id v (h.kept.subset he), h.old id v he, lastState_append]
  apart v hlt hv := by
    have hlt₁ : v.index < l₁.storages.size := Nat.lt_of_lt_of_le hlt h.le_size
    exact (h'.apart v hlt₁ fun hv₁ => hv (h.mem_values hv₁ hlt)).trans (h.apart v hlt hv)
  fresh id v he := by
    rcases h'.fresh id v he with he₁ | ⟨hid, hle, a, ha, hstorage⟩
    · refine (h.fresh id v he₁).imp_right ?_
      rintro ⟨hid, hle, a, ha, hstorage⟩
      refine ⟨hid, hle, a, ?_, ?_⟩
      · rw [List.find?_append, ha]
        rfl
      · rw [h'.old id v he₁, hstorage, lastState_append]
    · have hnone : ∀ a ∈ storages, a.id ≠ id := fun a ha hne => hid ((h.keys id).2 (.inr ⟨a, ha, hne⟩))
      refine .inr ⟨fun hold => hid (h.keys_subset hold), Nat.le_trans h.le_size hle, a, ?_, ?_⟩
      · have hfind : storages.find? (fun a => a.id = id) = none :=
          List.find?_eq_none.2 fun b hb heq => hnone b hb (of_decide_eq_true heq)
        rw [List.find?_append, hfind, ha]
        rfl
      · rw [hstorage, h.uuid, lastState_append, lastState_of_ne hnone]

end Announced

def updateStorages (l : Ledger) (n : NodeRef) (storages : List Announcement) : Ledger :=
  storages.foldl (fun l a => l.updateStorage n a) l

theorem Orderly.updateStorage (ho : l.Orderly) (n : NodeRef) (a : Announcement) : (l.updateStorage n a).Orderly := by
  unfold Ledger.updateStorage
  split
  · exact ho.modifyStorage rfl
  · rename_i hfind
    exact ho.announce hfind

/-- A volume that is known gets the state that is announced. -/
private theorem announced_of_some (ho : l.Orderly) {a : Announcement} {v : StorageRef} (hfind : l.storageOf? n a.id = some v) :
    l.Announced n [a] (l.modifyStorage v fun storage => { storage with state := a.state }) := by
  have hentry : (a.id, v) ∈ (l.node n).storages.entries := (Table.find?_eq_some_iff (ho.keys n)).1 hfind
  have hmade : v.index < l.storages.size := ho.made n v (List.mem_map_of_mem hentry)
  have hkey : a.id ∈ (l.node n).storages.keys := List.mem_map_of_mem hentry
  exact {
    nodes := rfl
    others := fun _ _ => rfl
    kept := List.prefix_rfl
    keys := fun id => by
      refine ⟨.inl, fun h => h.elim (fun h => h) ?_⟩
      rintro ⟨b, hb, rfl⟩
      rwa [List.mem_singleton.1 hb]
    size := congrArg (· + _) Array.size_modify
    apart := fun w _ hw => by
      refine storage_modifyStorage_of_ne ?_ _
      rintro rfl
      exact hw (List.mem_map_of_mem hentry)
    fresh := fun _ _ => .inl
    rest := rfl
    node := rfl
    old := fun id w he => by
      have hone : lastState [a] id (l.storage w).state = if a.id = id then a.state else (l.storage w).state := rfl
      by_cases hid : a.id = id
      · have hfound := (Table.find?_eq_some_iff (ho.keys n)).2 he
        rw [← hid] at hfound
        obtain rfl : w = v := Option.some.inj (hfound.symm.trans hfind)
        rw [hone, if_pos hid, storage_modifyStorage hmade]
      · have hw : w ≠ v := by
          rintro rfl
          exact hid ((ho.named n _ _ hentry).symm.trans (ho.named n _ _ he))
        rw [hone, if_neg hid, storage_modifyStorage_of_ne hw] }

/-- One that is not is entered. -/
private theorem announced_of_none (ho : l.Orderly) (hn : n.index < l.nodes.size) {a : Announcement}
    (hfind : l.storageOf? n a.id = none) : l.Announced n [a] (l.announce n a) := by
  have hself := node_announce_self (a := a) hn
  have hnew : a.id ∉ (l.node n).storages.keys := Table.find?_eq_none_iff.1 hfind
  have hentries : ((l.announce n a).node n).storages.entries =
      (l.node n).storages.entries ++ [(a.id, ⟨l.storages.size⟩)] := by
    rw [hself]
    exact Table.entries_insert_of_find? hfind _
  exact {
    nodes := Array.size_modify
    others := fun m hm => node_announce_of_ne hm
    kept := hentries ▸ List.prefix_append _ _
    keys := fun id => by
      simp only [Table.keys, hentries, List.map_append, List.mem_append, List.map_cons, List.map_nil,
        List.mem_singleton, exists_eq_left, eq_comm (a := id)]
    size := by
      simp only [Table.size, hentries, size_announce, List.length_append, List.length_singleton]
      omega
    apart := fun v hlt _ => storage_announce hlt
    fresh := fun id v he => by
      rw [hentries, List.mem_append] at he
      refine he.imp_right fun he => ?_
      cases List.mem_singleton.1 he
      have hone : lastState [a] a.id a.state = a.state := if_pos rfl
      refine ⟨hnew, Nat.le_refl _, a, ?_, ?_⟩
      · rw [List.find?_singleton, if_pos (decide_eq_true rfl)]
      · rw [hone]
        exact storage_announce_self
    rest := rfl
    node := by rw [hself]
    old := fun id v he => by
      have hid : ∀ b ∈ [a], b.id ≠ id := by
        intro b hb heq
        rw [List.mem_singleton.1 hb] at heq
        exact hnew (heq ▸ List.mem_map_of_mem he)
      rw [lastState_of_ne hid]
      exact storage_announce (ho.made n v (List.mem_map_of_mem he)) }

/-- One announcement, -/
theorem announced_updateStorage (ho : l.Orderly) (hn : n.index < l.nodes.size) (a : Announcement) :
    l.Announced n [a] (l.updateStorage n a) := by
  unfold updateStorage
  split
  · rename_i hfind
    exact announced_of_some ho hfind
  · rename_i hfind
    exact announced_of_none ho hn hfind

/-- and one after the other. -/
theorem announced_updateStorages (ho : l.Orderly) (hn : n.index < l.nodes.size) (storages : List Announcement) :
    l.Announced n storages (l.updateStorages n storages) := by
  induction storages generalizing l with
  | nil => exact .nil l n
  | cons a storages ih =>
    have hone := announced_updateStorage ho hn a
    exact hone.trans (ih (ho.updateStorage n a) (hone.nodes ▸ hn))

end Ledger
end DatanodeLedger
