import DatanodeLedger.Ledger.Cursor
import DatanodeLedger.Proofs.Membership.Coherent
import DatanodeLedger.Proofs.Slab.Stepping

/-! Walks that nothing interrupts. What a cursor has ahead of it is a piece of the list of its volume; it
gives out the first block of that and has the rest ahead of it then, so a walk over volumes gives out their
lists one after the other. A cursor whose slot has been taken from it has nothing ahead of it, and stops. -/
namespace DatanodeLedger
variable {l : Ledger} {c : Cursor}

/-- The slot that comes next. -/
def Cursor.slot? (l : Ledger) (c : Cursor) : Except Fault (Option Nat) :=
  match c.position with
  | .start => (l.storage c.storage).blocks.head Storage.blockList
  | .slot slot => .ok (some slot)
  | .done => .ok none

theorem Cursor.slot?_of_slot {i : Nat} (h : c.position = .slot i) : c.slot? l = .ok (some i) := by
  rw [Cursor.slot?, h]

theorem Cursor.slot?_of_done (h : c.position = .done) : c.slot? l = .ok none := by
  rw [Cursor.slot?, h]

/-- The blocks that a cursor still comes to if nothing changes, each after its key. -/
def Cursor.Ahead (l : Ledger) (c : Cursor) (row : List (UInt64 × BlockRef)) : Prop :=
  ∃ slot, c.slot? l = .ok slot ∧
    (l.storage c.storage).blocks.Walk Storage.blockList Slab.Entry.next slot row

/-- A step reads what the slot that comes next holds now. -/
theorem Cursor.next_eq {slot : Option Nat} (h : c.slot? l = .ok slot) : c.next l = .ok
    (match slot.bind ((l.storage c.storage).blocks.step Storage.blockList) with
      | some (b, some next) => (some b, { c with position := .slot next })
      | some (b, none) => (some b, { c with position := .done })
      | none => (none, { c with position := .done })) := by
  unfold Cursor.slot? at h
  unfold Cursor.next
  cases hp : c.position with
  | start =>
    rw [hp] at h
    simp only [h, bind, Except.bind, pure, Except.pure]
    rcases slot.bind _ with _ | ⟨b, _ | next⟩ <;> rfl
  | slot i =>
    rw [hp] at h
    cases h
    simp only [bind, Except.bind, pure, Except.pure]
    rcases (some i).bind _ with _ | ⟨b, _ | next⟩ <;> rfl
  | done =>
    rw [hp] at h
    cases h
    rfl

theorem Slab.step_of_entry {κ α : Type} {s : Slab κ α} {list slot : Nat} {e : Slab.Entry κ α}
    (h : s.entry slot = .ok e) (hlist : e.list = list) : s.step list slot = some (e.value, e.next) := by
  unfold Slab.entry at h
  unfold Slab.step
  split at h
  · rename_i hslot
    cases h
    rw [hslot]
    exact if_pos hlist
  · cases h
  · cases h

namespace Cursor.Ahead

theorem next_cons {k : UInt64} {b : BlockRef} {row : List (UInt64 × BlockRef)}
    (h : c.Ahead l ((k, b) :: row)) :
    ∃ position, c.next l = .ok (some b, { c with position }) ∧ Cursor.Ahead l { c with position } row := by
  obtain ⟨slot, hslot, hwalk⟩ := h
  cases hwalk with
  | @step slot e rest found owned hrest =>
    have hnext := Cursor.next_eq hslot
    rw [Option.bind_some, Slab.step_of_entry found owned] at hnext
    cases hlink : e.next with
    | none =>
      rw [hlink] at hnext hrest
      exact ⟨.done, hnext, none, rfl, hrest⟩
    | some i =>
      rw [hlink] at hnext hrest
      exact ⟨.slot i, hnext, some i, rfl, hrest⟩

theorem next_nil (h : c.Ahead l []) : c.next l = .ok (none, { c with position := .done }) := by
  obtain ⟨slot, hslot, hwalk⟩ := h
  cases hwalk with
  | stop => exact Cursor.next_eq hslot

end Cursor.Ahead

/-- The blocks that a cursor goes on to give out, from now on, if nothing changes. -/
inductive Cursor.Gives (l : Ledger) (c : Cursor) : List BlockRef → Prop
  | ahead {row : List (UInt64 × BlockRef)} (h : c.Ahead l row) : Gives l c (row.map Prod.snd)
  /-- the slot has been given back, or is behind the arena -/
  | lost {slot : Nat} (h : c.slot? l = .ok (some slot))
    (hstep : (l.storage c.storage).blocks.step Storage.blockList slot = none) : Gives l c []

namespace Cursor.Gives
variable {l' : Ledger} {b : BlockRef} {bs : List BlockRef}

theorem next_cons (h : c.Gives l (b :: bs)) :
    ∃ position, c.next l = .ok (some b, { c with position }) ∧ Cursor.Gives l { c with position } bs := by
  generalize hrow : b :: bs = blocks at h
  cases h with
  | @ahead row hahead =>
    cases row with
    | nil => cases hrow
    | cons e row =>
      cases hrow
      obtain ⟨position, hnext, hrest⟩ := hahead.next_cons
      exact ⟨position, hnext, .ahead hrest⟩
  | lost => cases hrow

theorem next_nil (h : c.Gives l []) : c.next l = .ok (none, { c with position := .done }) := by
  generalize hrow : ([] : List BlockRef) = blocks at h
  cases h with
  | @ahead row hahead =>
    cases List.map_eq_nil_iff.1 hrow.symm
    exact hahead.next_nil
  | lost hslot hstep =>
    rw [Cursor.next_eq hslot, Option.bind_some, hstep]

theorem of_done (h : c.position = .done) : c.Gives l [] := by
  have hahead : c.Ahead l [] := ⟨none, Cursor.slot?_of_done h, .stop⟩
  exact .ahead hahead

/-- Only the list of its own volume bears on a cursor. -/
theorem congr (h : c.Gives l bs) (hblocks : (l'.storage c.storage).blocks = (l.storage c.storage).blocks) :
    c.Gives l' bs := by
  have hslot : c.slot? l' = c.slot? l := by
    rw [Cursor.slot?, Cursor.slot?, hblocks]
  cases h with
  | ahead hahead =>
    obtain ⟨slot, hs, hwalk⟩ := hahead
    exact .ahead ⟨slot, hslot.trans hs, hblocks ▸ hwalk⟩
  | lost hs hstep => exact .lost (hslot.trans hs) (hblocks ▸ hstep)

/-- A cursor has no choice. -/
theorem unique {bs' : List BlockRef} (h : c.Gives l bs) (h' : c.Gives l bs') : bs = bs' := by
  induction bs generalizing c bs' with
  | nil =>
    cases bs' with
    | nil => rfl
    | cons b' bs' =>
      obtain ⟨position, hnext, -⟩ := h'.next_cons
      rw [h.next_nil] at hnext
      cases hnext
  | cons b bs ih =>
    obtain ⟨position, hnext, hrest⟩ := h.next_cons
    cases bs' with
    | nil =>
      rw [h'.next_nil] at hnext
      cases hnext
    | cons b' bs' =>
      obtain ⟨position', hnext', hrest'⟩ := h'.next_cons
      rw [hnext] at hnext'
      cases hnext'
      rw [ih hrest hrest']

section
variable {i : Nat} {row pre post : List (Slab.Seat UInt64 BlockRef)} {x : Slab.Seat UInt64 BlockRef}

/-- From a slot that holds a seat of its list, a cursor gives out the end of the list that begins there. -/
theorem of_seat (h : (l.storage c.storage).blocks.Layout [pre ++ x :: post]) (hc : c.position = .slot x.slot) :
    c.Gives l ((x :: post).map Slab.Seat.value) := by
  have hpairs : (x :: post).map Slab.Seat.value = ((x :: post).map Slab.Seat.pair).map Prod.snd := by
    rw [List.map_map]
    rfl
  rw [hpairs]
  exact .ahead ⟨_, Cursor.slot?_of_slot hc, h.walk_from (l := Storage.blockList) rfl⟩

/-- From any other slot it gives out nothing. -/
theorem of_notMem (h : (l.storage c.storage).blocks.Layout [row]) (hc : c.position = .slot i)
    (hi : i ∉ row.map Slab.Seat.slot) : c.Gives l [] := by
  have hslot : c.slot? l = .ok (some i) := by
    unfold Cursor.slot?
    rw [hc]
  exact .lost hslot (h.step_of_notMem rfl hi)

end

end Cursor.Gives

namespace Ledger

theorem map_snd_row (l : Ledger) (v : StorageRef) : (l.row v).map Prod.snd = l.listed v := by
  unfold row
  rw [List.map_map]
  exact List.map_id _

namespace Coherent

/-- A fresh cursor gives out the list of its volume. -/
theorem gives (h : l.Coherent) (v : StorageRef) : Cursor.Gives l { storage := v } (l.listed v) := by
  have hrow : [l.row v][Storage.blockList]? = some (l.row v) := rfl
  obtain ⟨ends, hends, hwalk, -⟩ := (h.shown v).walks hrow
  rw [← l.map_snd_row]
  refine .ahead ⟨ends.head, ?_, hwalk⟩
  simp only [Cursor.slot?, Slab.head, hends, Except.map]

/-- Any cursor, whatever slot it remembers, gives out an end of the list of its volume. -/
theorem exists_gives (h : l.Coherent) (c : Cursor) : ∃ bs, bs <:+ l.listed c.storage ∧ c.Gives l bs := by
  rcases c with ⟨v, position⟩
  cases position with
  | start => exact ⟨_, List.suffix_rfl, h.gives v⟩
  | done => exact ⟨[], List.nil_suffix, .of_done rfl⟩
  | slot i =>
    obtain ⟨row, hlay⟩ := h.exists_layout v
    by_cases hi : i ∈ row.map Slab.Seat.slot
    · obtain ⟨x, hx, rfl⟩ := List.mem_map.1 hi
      obtain ⟨pre, post, rfl⟩ := List.append_of_mem hx
      refine ⟨_, ?_, .of_seat hlay rfl⟩
      rw [Ledger.listed_of_layout hlay, List.map_append]
      exact List.suffix_append _ _
    · exact ⟨[], List.nil_suffix, .of_notMem hlay rfl hi⟩

end Coherent
end Ledger

namespace Ledger
variable {vs : List StorageRef}

/-- The memberships on some volumes, list by list. -/
def memberships (l : Ledger) (vs : List StorageRef) : List (StorageRef × BlockRef) :=
  vs.flatMap fun v => (l.listed v).map (v, ·)

theorem map_snd_memberships (l : Ledger) (vs : List StorageRef) :
    (l.memberships vs).map Prod.snd = vs.flatMap l.listed := by
  simp only [memberships, List.map_flatMap, List.map_map, Function.comp_def, List.map_id']

theorem mem_memberships {v : StorageRef} {b : BlockRef} :
    (v, b) ∈ l.memberships vs ↔ v ∈ vs ∧ b ∈ l.listed v := by
  simp only [memberships, List.mem_flatMap, List.mem_map, Prod.mk.injEq]
  constructor
  · rintro ⟨u, hu, c, hc, rfl, rfl⟩
    exact ⟨hu, hc⟩
  · rintro ⟨hv, hb⟩
    exact ⟨v, hv, b, hb, rfl, rfl⟩

end Ledger

namespace Walk
variable {cursors : List Cursor} {ps : List (StorageRef × BlockRef)}

theorem map_storage_through (vs : List StorageRef) : (through vs).cursors.map Cursor.storage = vs := by
  simp only [through, List.map_map, Function.comp_def, List.map_id']

/-- The blocks that cursors go on to give out one after the other if nothing changes, each with its volume. -/
inductive Gives (l : Ledger) : List Cursor → List (StorageRef × BlockRef) → Prop
  | nil : Gives l [] []
  | cons {c : Cursor} {cursors : List Cursor} {bs : List BlockRef} {ps : List (StorageRef × BlockRef)}
    (h : c.Gives l bs) (hrest : Gives l cursors ps) : Gives l (c :: cursors) (bs.map (c.storage, ·) ++ ps)

namespace Gives

/-- The first cursor that has something to give gives it, and those before it are left behind. -/
theorem next_cons {v : StorageRef} {b : BlockRef} (h : Gives l cursors ((v, b) :: ps)) :
    ∃ position post, next l cursors = .ok (some b, ⟨⟨v, position⟩ :: post⟩) ∧
      Gives l (⟨v, position⟩ :: post) ps ∧ v :: post.map Cursor.storage <:+ cursors.map Cursor.storage := by
  generalize hall : (v, b) :: ps = all at h
  induction h with
  | nil => cases hall
  | @cons c cursors bs rest hc hrest ih =>
    cases bs with
    | nil =>
      obtain ⟨position, post, hnext, hgives, hsuffix⟩ := ih hall
      refine ⟨position, post, ?_, hgives, hsuffix.trans (List.suffix_cons _ _)⟩
      simp only [next, hc.next_nil, bind, Except.bind]
      exact hnext
    | cons b' bs =>
      cases hall
      obtain ⟨position, hnext, hgives⟩ := hc.next_cons
      refine ⟨position, cursors, ?_, .cons hgives hrest, List.suffix_rfl⟩
      simp only [next, hnext, bind, Except.bind, pure, Except.pure]

theorem next_nil (h : Gives l cursors []) : next l cursors = .ok (none, ⟨[]⟩) := by
  generalize hall : ([] : List (StorageRef × BlockRef)) = all at h
  induction h with
  | nil => rfl
  | @cons c cursors bs rest hc hrest ih =>
    obtain ⟨hbs, hps⟩ := List.append_eq_nil_iff.1 hall.symm
    cases List.map_eq_nil_iff.1 hbs
    simp only [next, hc.next_nil, bind, Except.bind]
    exact ih hps.symm

theorem congr {l' : Ledger} (h : Gives l cursors ps)
    (hblocks : ∀ c ∈ cursors, (l'.storage c.storage).blocks = (l.storage c.storage).blocks) :
    Gives l' cursors ps := by
  induction h with
  | nil => exact .nil
  | cons hc _ ih =>
    obtain ⟨hfirst, hrest⟩ := List.forall_mem_cons.1 hblocks
    exact .cons (hc.congr hfirst) (ih hrest)

end Gives

theorem drain_eq (h : Gives l cursors ps) {fuel : Nat} (hfuel : ps.length < fuel) :
    drain l fuel ⟨cursors⟩ = .ok (ps.map Prod.snd) := by
  induction fuel generalizing cursors ps with
  | zero => exact (Nat.not_lt_zero _ hfuel).elim
  | succ fuel ih =>
    cases ps with
    | nil => simp only [drain, h.next_nil, bind, Except.bind, pure, Except.pure, List.map_nil]
    | cons p ps =>
      obtain ⟨position, post, hnext, hgives, -⟩ := h.next_cons
      have hrest := ih hgives (Nat.lt_of_succ_lt_succ hfuel)
      simp only [drain, hnext, bind, Except.bind, hrest, Except.map, List.map_cons]

end Walk

namespace Ledger.Coherent

theorem memberships_nodup (h : l.Coherent) {vs : List StorageRef} (hvs : vs.Nodup) :
    (l.memberships vs).Nodup := by
  refine List.nodup_flatMap.2 ⟨fun v _ => ?_, hvs.imp fun hne p hp hp' => ?_⟩
  · exact (h.listed_nodup v).map fun b c hbc => (Prod.mk.inj hbc).2
  · obtain ⟨b, -, rfl⟩ := List.mem_map.1 hp
    obtain ⟨c, -, hc⟩ := List.mem_map.1 hp'
    exact hne (Prod.mk.inj hc).1.symm

/-- The fresh cursors of a walk give out the lists of its volumes. -/
theorem gives_through (h : l.Coherent) (vs : List StorageRef) :
    Walk.Gives l (Walk.through vs).cursors (l.memberships vs) := by
  induction vs with
  | nil => exact .nil
  | cons v vs ih => exact .cons (h.gives v) ih

/-- Cursors that stand anywhere give out pieces of the lists of their volumes. -/
theorem exists_walk_gives (h : l.Coherent) (cursors : List Cursor) :
    ∃ ps, ps.Sublist (l.memberships (cursors.map Cursor.storage)) ∧ Walk.Gives l cursors ps := by
  induction cursors with
  | nil => exact ⟨[], .slnil, .nil⟩
  | cons c cursors ih =>
    obtain ⟨bs, hbs, hc⟩ := h.exists_gives c
    obtain ⟨ps, hps, hgives⟩ := ih
    exact ⟨_, (hbs.sublist.map _).append hps, .cons hc hgives⟩

/-- No list is longer than the arena that it lies in, so that the fuel of a walk is never what ends it. -/
private theorem length_memberships_le (h : l.Coherent) (vs : List StorageRef) (slots : Nat) :
    slots + (l.memberships vs).length ≤
      (Walk.through vs).cursors.foldl
        (fun slots cursor => slots + (l.storage cursor.storage).blocks.slots.size) slots := by
  induction vs generalizing slots with
  | nil => exact Nat.le_refl _
  | cons v vs ih =>
    have hlisted : (l.listed v).length ≤ (l.storage v).blocks.slots.size := by
      rw [← l.map_snd_row, List.length_map]
      exact (h.shown v).length_le (l := Storage.blockList) rfl
    refine Nat.le_trans ?_ (ih (slots + (l.storage v).blocks.slots.size))
    rw [memberships, List.flatMap_cons, List.length_append, List.length_map, ← Nat.add_assoc]
    exact Nat.add_le_add_right (Nat.add_le_add_left hlisted slots) _

/-- A walk that nothing interrupts leads over the lists of the volumes, one after the other. -/
theorem collect_eq (h : l.Coherent) (vs : List StorageRef) :
    (Walk.through vs).collect l = .ok (vs.flatMap l.listed) := by
  have hfuel := h.length_memberships_le vs 0
  rw [Nat.zero_add] at hfuel
  rw [← map_snd_memberships]
  exact Walk.drain_eq (h.gives_through vs) (Nat.lt_succ_of_le hfuel)

end Ledger.Coherent
end DatanodeLedger
