import DatanodeLedger.Proofs.Slab.Segment
import Mathlib.Data.List.Nodup
import Mathlib.Data.List.Perm.Basic

/-! The layout of a slab: one row of seats for every list, from head to tail. Seats and vacant slots
together are the whole arena, and the index leads to the seats and nowhere else. -/
namespace DatanodeLedger.Slab
variable {κ α : Type} {s s' : Slab κ α} {l : Nat} {row : List (Seat κ α)}
  {rows : List (List (Seat κ α))}

/-- The ends of a list with the given seats. -/
def endsOf (row : List (Seat κ α)) : Ends := ⟨firstSlot row none, lastSlot none row, row.length⟩

/-- What lies in the arena, list by list. -/
structure Layout (s : Slab κ α) (rows : List (List (Seat κ α))) : Prop where
  ends : ∀ l : Nat, s.lists[l]? = rows[l]?.map endsOf
  segment : ∀ {l : Nat} {row : List (Seat κ α)}, rows[l]? = some row → s.Segment l none row none
  slots : (rows.flatten.map Seat.slot ++ s.free).Perm (List.range s.slots.size)
  vacant : ∀ slot ∈ s.free, s.slots[slot]? = some none
  index : s.index.entries.Perm (rows.flatten.map fun x => (x.key, x.slot))
  keys : (rows.flatten.map Seat.key).Nodup

theorem withLists_layout (n : Nat) :
    (withLists n : Slab κ α).Layout (List.replicate n []) where
  ends l := by
    by_cases h : l < n <;> simp [withLists, h, endsOf, firstSlot, lastSlot]
  segment h := by
    obtain ⟨-, rfl⟩ := List.mem_replicate.1 (List.mem_of_getElem? h)
    trivial
  slots := by simp [withLists]
  vacant := by simp [withLists]
  index := by simp [withLists]
  keys := by simp

/-- The seats of the lists other than `l`. -/
def others (rows : List (List (Seat κ α))) (l : Nat) : List (Seat κ α) := (rows.eraseIdx l).flatten

theorem flatten_perm (h : rows[l]? = some row) : rows.flatten.Perm (row ++ others rows l) := by
  induction rows generalizing l with
  | nil => simp at h
  | cons r rest ih =>
    cases l with
    | zero =>
      cases h
      exact .refl _
    | succ l =>
      rw [List.flatten_cons, others, List.eraseIdx_cons_succ, List.flatten_cons]
      refine ((ih h).append_left r).trans ?_
      rw [← List.append_assoc, ← List.append_assoc]
      exact List.perm_append_comm.append_right _

theorem flatten_set_perm (h : rows[l]? = some row) (row' : List (Seat κ α)) :
    (rows.set l row').flatten.Perm (row' ++ others rows l) := by
  have hl : l < rows.length := (List.getElem?_eq_some_iff.1 h).1
  have hp : (rows.set l row').flatten.Perm (row' ++ others (rows.set l row') l) :=
    flatten_perm (List.getElem?_set_self hl)
  rwa [others, List.eraseIdx_set_eq] at hp

theorem mem_others {j : Nat} {r : List (Seat κ α)} (h : rows[j]? = some r) (hj : j ≠ l)
    {x : Seat κ α} (hx : x ∈ r) : x ∈ others rows l :=
  List.mem_flatten.2 ⟨r, List.mem_eraseIdx_iff_getElem?.2 ⟨j, hj, h⟩, hx⟩

/-- The books of a slab, with one row set apart. -/
theorem Layout.slots_perm (h : s.Layout rows) (hr : rows[l]? = some row) :
    ((row ++ others rows l).map Seat.slot ++ s.free).Perm (List.range s.slots.size) :=
  (((flatten_perm hr).map _).append_right _).symm.trans h.slots

theorem Layout.index_perm (h : s.Layout rows) (hr : rows[l]? = some row) :
    s.index.entries.Perm ((row ++ others rows l).map fun x => (x.key, x.slot)) :=
  h.index.trans ((flatten_perm hr).map _)

theorem Layout.keys_nodup (h : s.Layout rows) (hr : rows[l]? = some row) :
    ((row ++ others rows l).map Seat.key).Nodup :=
  ((flatten_perm hr).map _).nodup_iff.1 h.keys

theorem Layout.used_nodup (h : s.Layout rows) (hr : rows[l]? = some row) :
    ((row ++ others rows l).map Seat.slot).Nodup :=
  (List.nodup_append.1 ((h.slots_perm hr).nodup_iff.2 List.nodup_range)).1

theorem Layout.row_nodup (h : s.Layout rows) (hr : rows[l]? = some row) :
    (row.map Seat.slot).Nodup := by
  have hu := h.used_nodup hr
  rw [List.map_append] at hu
  exact (List.nodup_append.1 hu).1

theorem Layout.notMem_row (h : s.Layout rows) (hr : rows[l]? = some row) {x : Seat κ α}
    (hx : x ∈ others rows l) : x.slot ∉ row.map Seat.slot := by
  have hu := h.used_nodup hr
  rw [List.map_append] at hu
  intro hmem
  exact (List.nodup_append.1 hu).2.2 _ hmem _ (List.mem_map_of_mem hx) rfl

theorem Layout.free_disjoint (h : s.Layout rows) {slot : Nat} (hs : slot ∈ s.free) :
    slot ∉ rows.flatten.map Seat.slot := by
  intro hmem
  exact (List.nodup_append.1 (h.slots.nodup_iff.2 List.nodup_range)).2.2 _ hmem _ hs rfl

/-- One row may be exchanged if the other lists are left alone and the books are kept. -/
theorem Layout.set (h : s.Layout rows) (hr : rows[l]? = some row) {row' : List (Seat κ α)}
    (hends : s'.lists[l]? = some (endsOf row'))
    (hlists : ∀ j, j ≠ l → s'.lists[j]? = s.lists[j]?)
    (hseg : s'.Segment l none row' none)
    (hframe : ∀ x ∈ others rows l, s'.slots[x.slot]? = s.slots[x.slot]?)
    (hslots : ((row' ++ others rows l).map Seat.slot ++ s'.free).Perm (List.range s'.slots.size))
    (hvacant : ∀ slot ∈ s'.free, s'.slots[slot]? = some none)
    (hindex : s'.index.entries.Perm ((row' ++ others rows l).map fun x => (x.key, x.slot)))
    (hkeys : ((row' ++ others rows l).map Seat.key).Nodup) : s'.Layout (rows.set l row') := by
  have hp := flatten_set_perm hr row'
  have hl : l < rows.length := (List.getElem?_eq_some_iff.1 hr).1
  refine ⟨fun j => ?_, fun {j r} hj => ?_, ?_, hvacant, ?_, ?_⟩
  · by_cases hjl : j = l
    · rw [hjl, hends, List.getElem?_set_self hl, Option.map_some]
    · rw [hlists j hjl, List.getElem?_set_ne (Ne.symm hjl), h.ends j]
  · by_cases hjl : j = l
    · rw [hjl, List.getElem?_set_self hl] at hj
      cases hj
      exact hjl ▸ hseg
    · rw [List.getElem?_set_ne (Ne.symm hjl)] at hj
      exact (h.segment hj).congr fun x hx => hframe x (mem_others hj hjl hx)
  · exact ((hp.map _).append_right _).trans hslots
  · exact hindex.trans (hp.map _).symm
  · exact (hp.map _).nodup_iff.2 hkeys

end DatanodeLedger.Slab
