import DatanodeLedger.Slab
import Mathlib.Data.List.Nodup

/-! Pieces of the lists of a slab: runs of entries that are linked to one another in both directions.
An operation on a slab cuts a list into pieces and joins others; each piece is led over by its own
law. -/
namespace DatanodeLedger.Slab
variable {κ α : Type} {s s' : Slab κ α} {l : Nat} {before after : Option Nat}

/-- An entry of a list with the slot that it occupies. -/
structure Seat (κ α : Type) where
  slot : Nat
  key : κ
  value : α

/-- The entry in front of which nothing stands, given what the row is followed by. -/
def firstSlot : List (Seat κ α) → Option Nat → Option Nat
  | [], after => after
  | x :: _, _ => some x.slot

def lastSlot : Option Nat → List (Seat κ α) → Option Nat
  | before, [] => before
  | _, x :: rest => lastSlot (some x.slot) rest

/-- The seats of a row lie in the arena one after the other, `before` in front and `after` behind. -/
def Segment (s : Slab κ α) (l : Nat) : Option Nat → List (Seat κ α) → Option Nat → Prop
  | _, [], _ => True
  | before, x :: rest, after =>
    s.slots[x.slot]? = some (some ⟨x.key, x.value, l, before, firstSlot rest after⟩) ∧
      s.Segment l (some x.slot) rest after

theorem firstSlot_cons (x : Seat κ α) (row : List (Seat κ α)) (after : Option Nat) :
    firstSlot (x :: row) after = some x.slot := rfl

theorem firstSlot_append (row row' : List (Seat κ α)) (after : Option Nat) :
    firstSlot (row ++ row') after = firstSlot row (firstSlot row' after) := by
  cases row <;> rfl

theorem lastSlot_append (before : Option Nat) (row row' : List (Seat κ α)) :
    lastSlot before (row ++ row') = lastSlot (lastSlot before row) row' := by
  induction row generalizing before with
  | nil => rfl
  | cons x rest ih => exact ih _

theorem segment_append {row row' : List (Seat κ α)} :
    s.Segment l before (row ++ row') after ↔
      s.Segment l before row (firstSlot row' after) ∧
        s.Segment l (lastSlot before row) row' after := by
  induction row generalizing before with
  | nil => simp [Segment, lastSlot]
  | cons x rest ih =>
    simp only [List.cons_append, Segment, lastSlot, firstSlot_append, ih, and_assoc]

/-- A segment is not concerned by what happens in other slots. -/
theorem Segment.congr {row : List (Seat κ α)} (h : s.Segment l before row after)
    (hs : ∀ x ∈ row, s'.slots[x.slot]? = s.slots[x.slot]?) : s'.Segment l before row after := by
  induction row generalizing before with
  | nil => trivial
  | cons x rest ih =>
    obtain ⟨hx, hrest⟩ := h
    refine ⟨(hs x List.mem_cons_self).trans hx, ih hrest fun y hy => ?_⟩
    exact hs y (List.mem_cons_of_mem x hy)

theorem entry_of_slot {slot : Nat} {e : Entry κ α} (h : s.slots[slot]? = some (some e)) :
    s.entry slot = .ok e := by
  simp [entry, h]

theorem slots_setSlot (s : Slab κ α) (slot j : Nat) (e : Option (Entry κ α)) :
    (s.setSlot slot e).slots[j]? = if slot = j then s.slots[j]?.map fun _ => e else s.slots[j]? := by
  simp only [setSlot, Array.getElem?_setIfInBounds]
  split
  · split
    · simp_all
    · simp_all
  · rfl

theorem slots_setSlot_of_ne (s : Slab κ α) {slot j : Nat} (h : slot ≠ j)
    (e : Option (Entry κ α)) : (s.setSlot slot e).slots[j]? = s.slots[j]? := by
  rw [slots_setSlot, if_neg h]

theorem slots_setSlot_self {s : Slab κ α} {slot : Nat} {c : Option (Entry κ α)}
    (h : s.slots[slot]? = some c) (e : Option (Entry κ α)) :
    (s.setSlot slot e).slots[slot]? = some e := by
  rw [slots_setSlot, if_pos rfl, h]
  rfl

theorem lists_modifyEnds (s : Slab κ α) (l j : Nat) (f : Ends → Ends) :
    (s.modifyEnds l f).lists[j]? = if l = j then s.lists[j]?.map f else s.lists[j]? :=
  Array.getElem?_modify

/-- Nothing has changed but the links of a row and the ends of its list. -/
structure Relinked (s s' : Slab κ α) (l : Nat) (row : List (Seat κ α)) : Prop where
  slots : ∀ j, j ∉ row.map Seat.slot → s'.slots[j]? = s.slots[j]?
  size : s'.slots.size = s.slots.size
  free : s'.free = s.free
  index : s'.index = s.index
  lists : ∀ j, j ≠ l → s'.lists[j]? = s.lists[j]?

private theorem relinked_setSlot (s : Slab κ α) (l : Nat) {row : List (Seat κ α)} {x : Seat κ α}
    (hx : x ∈ row) (e : Option (Entry κ α)) : Relinked s (s.setSlot x.slot e) l row where
  slots _ hj := s.slots_setSlot_of_ne (fun h => hj (List.mem_map.2 ⟨x, hx, h⟩)) e
  size := Array.size_setIfInBounds
  free := rfl
  index := rfl
  lists _ _ := rfl

private theorem relinked_modifyEnds (s : Slab κ α) (l : Nat) (row : List (Seat κ α))
    (f : Ends → Ends) : Relinked s (s.modifyEnds l f) l row where
  slots _ _ := rfl
  size := rfl
  free := rfl
  index := rfl
  lists _ hj := by rw [lists_modifyEnds, if_neg (Ne.symm hj)]

/-- The first piece of a list is made to lead on to `next`. -/
theorem linkNext_spec {row : List (Seat κ α)} {tail : Option Nat} {n : Nat}
    (h : s.Segment l none row after) (hd : (row.map Seat.slot).Nodup)
    (he : s.lists[l]? = some ⟨firstSlot row after, tail, n⟩) (next : Option Nat) :
    ∃ s', s.linkNext l (lastSlot none row) next = .ok s' ∧ Relinked s s' l row ∧
      s'.Segment l none row next ∧ s'.lists[l]? = some ⟨firstSlot row next, tail, n⟩ := by
  rcases List.eq_nil_or_concat' row with rfl | ⟨init, y, rfl⟩
  · refine ⟨_, rfl, relinked_modifyEnds s l [] _, trivial, ?_⟩
    rw [lists_modifyEnds, if_pos rfl, he]
    rfl
  · obtain ⟨hinit, hy, -⟩ := segment_append.1 h
    rw [List.map_append, List.nodup_append] at hd
    have hset : s.setNext y.slot next =
        .ok (s.setSlot y.slot (some ⟨y.key, y.value, l, lastSlot none init, next⟩)) := by
      simp only [setNext, entry_of_slot hy, Except.map]
    refine ⟨_, by rw [lastSlot_append]; exact hset, relinked_setSlot s l (by simp) _, ?_, ?_⟩
    · refine segment_append.2 ⟨hinit.congr fun x hx => ?_, slots_setSlot_self hy _, trivial⟩
      refine s.slots_setSlot_of_ne (Ne.symm ?_) _
      exact hd.2.2 _ (List.mem_map_of_mem hx) _ (by simp)
    · rw [firstSlot_append] at he ⊢
      exact he

/-- The last piece of a list is made to lead back to `prev`. -/
theorem linkPrev_spec {row : List (Seat κ α)} {head : Option Nat} {n : Nat}
    (h : s.Segment l before row none) (hd : (row.map Seat.slot).Nodup)
    (he : s.lists[l]? = some ⟨head, lastSlot before row, n⟩) (prev : Option Nat) :
    ∃ s', s.linkPrev l (firstSlot row none) prev = .ok s' ∧ Relinked s s' l row ∧
      s'.Segment l prev row none ∧ s'.lists[l]? = some ⟨head, lastSlot prev row, n⟩ := by
  cases row with
  | nil =>
    refine ⟨_, rfl, relinked_modifyEnds s l [] _, trivial, ?_⟩
    rw [lists_modifyEnds, if_pos rfl, he]
    rfl
  | cons y rest =>
    obtain ⟨hy, hrest⟩ := h
    rw [List.map_cons, List.nodup_cons] at hd
    have hset : s.setPrev y.slot prev =
        .ok (s.setSlot y.slot (some ⟨y.key, y.value, l, prev, firstSlot rest none⟩)) := by
      simp only [setPrev, entry_of_slot hy, Except.map]
    refine ⟨_, hset, relinked_setSlot s l (by simp) _, ⟨slots_setSlot_self hy _, ?_⟩, he⟩
    refine hrest.congr fun x hx => s.slots_setSlot_of_ne (fun heq => hd.1 ?_) _
    exact heq ▸ List.mem_map_of_mem hx

end DatanodeLedger.Slab
