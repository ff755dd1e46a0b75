import DatanodeLedger.Proofs.Slab.Clear
import DatanodeLedger.Proofs.Slab.Plain
import DatanodeLedger.Proofs.Slab.Push
import DatanodeLedger.Proofs.Slab.Unlink

/-! The lists that a slab shows, without the slots they happen to lie in. Whoever uses a slab needs
no more of its layout than this. -/
namespace DatanodeLedger.Slab
variable {κ α : Type} {s : Slab κ α} {m : Plain κ α} {l : Nat} {row : List (κ × α)} {k : κ} {a : α}

/-- The rows of a layout without their slots. -/
def plain (rows : List (List (Seat κ α))) : Plain κ α := rows.map fun row => row.map Seat.pair

/-- The slab is laid out as these lists, in whatever slots. -/
def Shows (s : Slab κ α) (m : Plain κ α) : Prop := ∃ rows, s.Layout rows ∧ plain rows = m

theorem keys_plain (rows : List (List (Seat κ α))) :
    (plain rows).keys = rows.flatten.map Seat.key := by
  simp only [Plain.keys, plain, List.map_flatten, List.map_map, Function.comp_def, Seat.pair]

theorem plain_set (rows : List (List (Seat κ α))) (l : Nat) (row : List (Seat κ α)) :
    plain (rows.set l row) = (plain rows).set l (row.map Seat.pair) :=
  List.map_set

private theorem row_of_plain {rows : List (List (Seat κ α))} (h : (plain rows)[l]? = some row) :
    ∃ r, rows[l]? = some r ∧ r.map Seat.pair = row := by
  rw [plain, List.getElem?_map] at h
  exact Option.map_eq_some_iff.1 h

theorem withLists_shows (n : Nat) : (withLists n : Slab κ α).Shows (List.replicate n []) :=
  ⟨_, withLists_layout n, List.map_replicate⟩

namespace Shows

theorem keys_nodup (h : s.Shows m) : m.keys.Nodup := by
  obtain ⟨rows, hlay, rfl⟩ := h
  rw [keys_plain]
  exact hlay.keys

theorem clear (h : s.Shows m) : s.clear.Shows (m.map fun _ => []) := by
  obtain ⟨rows, hlay, rfl⟩ := h
  exact ⟨_, hlay.clear, by simp only [plain, List.map_replicate, List.map_nil, List.map_map,
    Function.comp_def, List.map_const']⟩

theorem entries_eq (h : s.Shows m) (hl : m[l]? = some row) : s.entries l = .ok row := by
  obtain ⟨rows, hlay, rfl⟩ := h
  obtain ⟨r, hr, rfl⟩ := row_of_plain hl
  exact hlay.entries_eq hr

theorem length_eq (h : s.Shows m) (hl : m[l]? = some row) : s.length l = .ok row.length := by
  obtain ⟨rows, hlay, rfl⟩ := h
  obtain ⟨r, hr, rfl⟩ := row_of_plain hl
  rw [hlay.length_eq hr, List.length_map]

theorem length_le (h : s.Shows m) (hl : m[l]? = some row) : row.length ≤ s.slots.size := by
  obtain ⟨rows, hlay, rfl⟩ := h
  obtain ⟨r, hr, rfl⟩ := row_of_plain hl
  rw [List.length_map]
  exact hlay.length_le hr

/-- From the head along the links to the entry behind, and from the tail along those to the entry
before, a list is the same. -/
theorem walks (h : s.Shows m) (hl : m[l]? = some row) :
    ∃ ends, s.ends l = .ok ends ∧ s.Walk l Entry.next ends.head row ∧
      s.Walk l Entry.prev ends.tail row.reverse := by
  obtain ⟨rows, hlay, rfl⟩ := h
  obtain ⟨r, hr, rfl⟩ := row_of_plain hl
  exact ⟨_, hlay.ends_eq hr, (hlay.segment hr).walk, (hlay.segment hr).walk_back⟩

theorem size_eq (h : s.Shows m) : s.size = m.flatten.length := by
  obtain ⟨rows, hlay, rfl⟩ := h
  rw [hlay.size_eq, plain, ← List.map_flatten, List.length_map]

variable [DecidableEq κ]

theorem contains_iff (h : s.Shows m) : s.contains k = true ↔ k ∈ m.keys := by
  obtain ⟨rows, hlay, rfl⟩ := h
  rw [keys_plain]
  exact hlay.contains_iff

theorem listOf?_eq (h : s.Shows m) (k : κ) : s.listOf? k = .ok (m.owner? k) := by
  have hnd := h.keys_nodup
  obtain ⟨rows, hlay, rfl⟩ := h
  by_cases hk : k ∈ (plain rows).keys
  · obtain ⟨l, row, hl, hk⟩ := Plain.exists_row hk
    obtain ⟨r, hr, rfl⟩ := row_of_plain hl
    rw [Plain.owner?_eq hnd hl hk]
    obtain ⟨e, he, rfl⟩ := List.mem_map.1 hk
    obtain ⟨x, hx, rfl⟩ := List.mem_map.1 he
    exact hlay.listOf?_eq hr hx
  · rw [Plain.owner?_of_notMem hk]
    exact hlay.listOf?_of_notMem (keys_plain rows ▸ hk)

theorem get?_eq (h : s.Shows m) (k : κ) : s.get? k = .ok (m.value? k) := by
  have hnd := h.keys_nodup
  obtain ⟨rows, hlay, rfl⟩ := h
  by_cases hk : k ∈ (plain rows).keys
  · obtain ⟨l, row, hl, hk⟩ := Plain.exists_row hk
    obtain ⟨r, hr, rfl⟩ := row_of_plain hl
    obtain ⟨e, he, rfl⟩ := List.mem_map.1 hk
    rw [Plain.value?_eq hnd hl he]
    obtain ⟨x, hx, rfl⟩ := List.mem_map.1 he
    exact hlay.get?_eq hr hx
  · rw [Plain.value?_of_notMem hk]
    exact hlay.get?_of_notMem (keys_plain rows ▸ hk)

/-- A key that is linked is refused, and the slab stays as it is, slots and all. -/
theorem push_refused (h : s.Shows m) (hk : k ∈ m.keys) (l : Nat) (a : α) :
    s.pushFront l k a = .ok (false, s) ∧ s.pushBack l k a = .ok (false, s) := by
  obtain ⟨rows, hlay, rfl⟩ := h
  rw [keys_plain] at hk
  exact ⟨hlay.pushFront_of_mem hk l a, hlay.pushBack_of_mem hk l a⟩

theorem pushFront (h : s.Shows m) (hl : m[l]? = some row) (hk : k ∉ m.keys) (a : α) :
    ∃ s', s.pushFront l k a = .ok (true, s') ∧ s'.Shows (m.set l ((k, a) :: row)) := by
  obtain ⟨rows, hlay, rfl⟩ := h
  obtain ⟨r, hr, rfl⟩ := row_of_plain hl
  rw [keys_plain] at hk
  obtain ⟨slot, s', hpush, hlay'⟩ := hlay.pushFront hr hk a
  exact ⟨s', hpush, _, hlay', plain_set rows l _⟩

theorem pushBack (h : s.Shows m) (hl : m[l]? = some row) (hk : k ∉ m.keys) (a : α) :
    ∃ s', s.pushBack l k a = .ok (true, s') ∧ s'.Shows (m.set l (row ++ [(k, a)])) := by
  obtain ⟨rows, hlay, rfl⟩ := h
  obtain ⟨r, hr, rfl⟩ := row_of_plain hl
  rw [keys_plain] at hk
  obtain ⟨slot, s', hpush, hlay'⟩ := hlay.pushBack hr hk a
  refine ⟨s', hpush, _, hlay', ?_⟩
  rw [plain_set, List.map_append]
  rfl

theorem remove (h : s.Shows m) {pre post : List (κ × α)}
    (hl : m[l]? = some (pre ++ (k, a) :: post)) :
    ∃ s', s.remove k = .ok (some (l, a), s') ∧ s'.Shows (m.set l (pre ++ post)) := by
  obtain ⟨rows, hlay, rfl⟩ := h
  obtain ⟨r, hr, hrow⟩ := row_of_plain hl
  obtain ⟨pre, rest, rfl, rfl, hrest⟩ := List.map_eq_append_iff.1 hrow
  obtain ⟨x, post, rfl, hx, rfl⟩ := List.map_eq_cons_iff.1 hrest
  cases hx
  obtain ⟨s', hrem, hlay'⟩ := hlay.remove hr
  refine ⟨s', hrem, _, hlay', ?_⟩
  rw [plain_set, List.map_append]

theorem remove_of_notMem (h : s.Shows m) (hk : k ∉ m.keys) : s.remove k = .ok (none, s) := by
  obtain ⟨rows, hlay, rfl⟩ := h
  rw [keys_plain] at hk
  exact hlay.remove_of_notMem hk

theorem clearList (h : s.Shows m) (hl : m[l]? = some row) :
    ∃ s', s.clearList l = .ok (row.length, s') ∧ s'.Shows (m.set l []) := by
  obtain ⟨rows, hlay, rfl⟩ := h
  obtain ⟨r, hr, rfl⟩ := row_of_plain hl
  obtain ⟨s', hclear, hlay'⟩ := hlay.clearList hr
  rw [List.length_map]
  exact ⟨s', hclear, _, hlay', plain_set rows l []⟩

end Shows
end DatanodeLedger.Slab
