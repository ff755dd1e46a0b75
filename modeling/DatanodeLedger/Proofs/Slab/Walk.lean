import DatanodeLedger.Proofs.Slab.Layout
import Mathlib.Data.List.Induction

/-! Looking into a slab: what its questions answer follows from its layout. A walk along the links of
a list, in either direction, meets its seats and comes to an end. -/
namespace DatanodeLedger.Slab
variable {κ α : Type} {s : Slab κ α} {l : Nat} {row : List (Seat κ α)} {rows : List (List (Seat κ α))}

def Seat.pair (x : Seat κ α) : κ × α := (x.key, x.value)

/-- Following the links that `turn` gives out, from one slot until there is none, leads over these
keys and values, all of them entries of one list. -/
inductive Walk (s : Slab κ α) (l : Nat) (turn : Entry κ α → Option Nat) :
    Option Nat → List (κ × α) → Prop
  | stop : Walk s l turn none []
  | step {slot : Nat} {e : Entry κ α} {rest : List (κ × α)} (found : s.entry slot = .ok e)
      (owned : e.list = l) (walk : Walk s l turn (turn e) rest) :
      Walk s l turn (some slot) ((e.key, e.value) :: rest)

theorem Segment.walk {before : Option Nat} (h : s.Segment l before row none) :
    s.Walk l Entry.next (firstSlot row none) (row.map Seat.pair) := by
  induction row generalizing before with
  | nil => exact .stop
  | cons x rest ih => exact .step (entry_of_slot h.1) rfl (ih h.2)

theorem Segment.walk_back {after : Option Nat} (h : s.Segment l none row after) :
    s.Walk l Entry.prev (lastSlot none row) (row.map Seat.pair).reverse := by
  induction row using List.reverseRecOn generalizing after with
  | nil => exact .stop
  | append_singleton init x ih =>
    obtain ⟨hinit, hx, -⟩ := segment_append.1 h
    rw [lastSlot_append, List.map_append, List.reverse_append]
    exact .step (entry_of_slot hx) rfl (ih hinit)

/-- The fuel of a chain is never what ends it. -/
theorem Walk.chain_eq {start : Option Nat} {es : List (κ × α)}
    (h : s.Walk l Entry.next start es) {fuel : Nat} (hf : es.length ≤ fuel) :
    s.chain l fuel start = .ok es := by
  induction h generalizing fuel with
  | stop => cases fuel <;> rfl
  | @step slot e rest found owned _ ih =>
    cases fuel with
    | zero => simp at hf
    | succ fuel =>
      have hrest := ih (Nat.le_of_succ_le_succ hf)
      simp only [chain, found, hrest, owned, ne_eq, not_true_eq_false, if_false, bind,
        Except.bind, pure, Except.pure]

namespace Layout

theorem ends_eq (h : s.Layout rows) (hr : rows[l]? = some row) : s.ends l = .ok (endsOf row) := by
  have := h.ends l
  rw [hr, Option.map_some] at this
  simp only [Slab.ends, this]

theorem length_eq (h : s.Layout rows) (hr : rows[l]? = some row) :
    s.length l = .ok row.length := by
  simp only [Slab.length, h.ends_eq hr, Except.map, endsOf]

theorem head_eq (h : s.Layout rows) (hr : rows[l]? = some row) :
    s.head l = .ok (firstSlot row none) := by
  simp only [Slab.head, h.ends_eq hr, Except.map, endsOf]

theorem length_le (h : s.Layout rows) (hr : rows[l]? = some row) : row.length ≤ s.slots.size := by
  have hp := (flatten_perm hr).length_eq
  have hs := h.slots.length_eq
  simp only [List.length_append, List.length_map, List.length_range] at hp hs
  omega

theorem entries_eq (h : s.Layout rows) (hr : rows[l]? = some row) :
    s.entries l = .ok (row.map Seat.pair) := by
  have hlen : (row.map Seat.pair).length ≤ s.slots.size := by
    rw [List.length_map]
    exact h.length_le hr
  simp only [entries, h.head_eq hr, bind, Except.bind, (h.segment hr).walk.chain_eq hlen]

/-- A seat is what its slot says, and its neighbours in the row are what its links lead to. -/
theorem slot_eq {pre post : List (Seat κ α)} {x : Seat κ α} (h : s.Layout rows)
    (hr : rows[l]? = some (pre ++ x :: post)) :
    s.slots[x.slot]? = some (some ⟨x.key, x.value, l, lastSlot none pre, firstSlot post none⟩) :=
  (segment_append.1 (h.segment hr)).2.1

theorem entry_eq {x : Seat κ α} (h : s.Layout rows) (hr : rows[l]? = some row) (hx : x ∈ row) :
    ∃ e, s.entry x.slot = .ok e ∧ e.key = x.key ∧ e.value = x.value ∧ e.list = l := by
  obtain ⟨pre, post, rfl⟩ := List.append_of_mem hx
  exact ⟨_, entry_of_slot (h.slot_eq hr), rfl, rfl, rfl⟩

theorem size_eq (h : s.Layout rows) : s.size = rows.flatten.length := by
  rw [size, Table.size, h.index.length_eq, List.length_map]

theorem keys_index (h : s.Layout rows) :
    s.index.keys.Perm (rows.flatten.map Seat.key) := by
  simpa [Table.keys, Function.comp_def] using h.index.map Prod.fst

theorem mem_flatten (hr : rows[l]? = some row) {x : Seat κ α} (hx : x ∈ row) :
    x ∈ rows.flatten :=
  List.mem_flatten.2 ⟨row, List.mem_of_getElem? hr, hx⟩

variable [DecidableEq κ]

theorem contains_iff (h : s.Layout rows) {k : κ} :
    s.contains k = true ↔ k ∈ rows.flatten.map Seat.key :=
  Table.contains_iff.trans h.keys_index.mem_iff

theorem contains_of_notMem (h : s.Layout rows) {k : κ} (hk : k ∉ rows.flatten.map Seat.key) :
    s.contains k = false :=
  Bool.eq_false_iff.2 fun hc => hk (h.contains_iff.1 hc)

theorem find?_index (h : s.Layout rows) {x : Seat κ α} (hx : x ∈ rows.flatten) :
    s.index.find? x.key = some x.slot := by
  rw [Table.find?_eq_some_iff (h.keys_index.nodup_iff.2 h.keys), h.index.mem_iff]
  exact List.mem_map.2 ⟨x, hx, rfl⟩

theorem find?_index_of_notMem (h : s.Layout rows) {k : κ} (hk : k ∉ rows.flatten.map Seat.key) :
    s.index.find? k = none := by
  rwa [Table.find?_eq_none_iff, h.keys_index.mem_iff]

theorem get?_eq (h : s.Layout rows) (hr : rows[l]? = some row) {x : Seat κ α} (hx : x ∈ row) :
    s.get? x.key = .ok (some x.value) := by
  obtain ⟨e, he, -, hv, -⟩ := h.entry_eq hr hx
  simp only [get?, h.find?_index (mem_flatten hr hx), he, Except.map, hv]

theorem listOf?_eq (h : s.Layout rows) (hr : rows[l]? = some row) {x : Seat κ α} (hx : x ∈ row) :
    s.listOf? x.key = .ok (some l) := by
  obtain ⟨e, he, -, -, hl⟩ := h.entry_eq hr hx
  simp only [listOf?, h.find?_index (mem_flatten hr hx), he, Except.map, hl]

theorem get?_of_notMem (h : s.Layout rows) {k : κ} (hk : k ∉ rows.flatten.map Seat.key) :
    s.get? k = .ok none := by
  simp only [get?, h.find?_index_of_notMem hk]

theorem listOf?_of_notMem (h : s.Layout rows) {k : κ} (hk : k ∉ rows.flatten.map Seat.key) :
    s.listOf? k = .ok none := by
  simp only [listOf?, h.find?_index_of_notMem hk]

end Layout
end DatanodeLedger.Slab
