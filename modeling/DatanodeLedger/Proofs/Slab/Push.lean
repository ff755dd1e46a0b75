import DatanodeLedger.Proofs.Slab.Walk

/-! Linking a new key: it takes a slot that no seat occupies, and becomes the first or the last seat
of its row. -/
namespace DatanodeLedger.Slab
variable {κ α : Type} {s s' : Slab κ α} {l : Nat} {row : List (Seat κ α)}
  {rows : List (List (Seat κ α))}

private theorem alloc_of_nil (h : s.free = []) (e : Entry κ α) :
    s.alloc e = (s.slots.size, { s with slots := s.slots.push (some e) }) := by
  simp only [alloc, h]

private theorem alloc_of_cons {slot : Nat} {free : List Nat} (h : s.free = slot :: free)
    (e : Entry κ α) : s.alloc e = (slot, { s.setSlot slot (some e) with free }) := by
  simp only [alloc, h]

/-- A vacant slot, or a new one, has been given to an entry. -/
structure Allocated (s s' : Slab κ α) (used : List Nat) (slot : Nat) (e : Entry κ α) : Prop where
  fresh : slot ∉ used
  entry : s'.slots[slot]? = some (some e)
  rest : ∀ j, j ≠ slot → s'.slots[j]? = s.slots[j]?
  slots : (slot :: used ++ s'.free).Perm (List.range s'.slots.size)
  vacant : ∀ j ∈ s'.free, s'.slots[j]? = some none
  index : s'.index = s.index
  lists : s'.lists = s.lists

/-- A slot is handed out only if it is not in use, and is in use from then on. -/
theorem alloc_spec {used : List Nat} (hs : (used ++ s.free).Perm (List.range s.slots.size))
    (hv : ∀ slot ∈ s.free, s.slots[slot]? = some none) (e : Entry κ α) :
    ∃ slot s', s.alloc e = (slot, s') ∧ Allocated s s' used slot e := by
  have hnd := hs.nodup_iff.2 List.nodup_range
  cases hf : s.free with
  | nil =>
    rw [hf, List.append_nil] at hs
    refine ⟨_, _, alloc_of_nil hf e, ?_, ?_, ?_, ?_, ?_, rfl, rfl⟩
    · intro hmem
      exact Nat.lt_irrefl _ (List.mem_range.1 (hs.mem_iff.1 hmem))
    · exact Array.getElem?_push_size
    · intro j hj
      exact Array.getElem?_push.trans (if_neg hj)
    · simp only [hf, List.append_nil, Array.size_push, List.range_succ]
      exact (hs.cons _).trans (List.perm_append_singleton _ _).symm
    · simp [hf]
  | cons slot free =>
    rw [hf] at hs hv hnd
    have hslot := hv slot List.mem_cons_self
    have hfree := (List.nodup_cons.1 (List.nodup_append.1 hnd).2.1).1
    refine ⟨_, _, alloc_of_cons hf e, ?_, ?_, ?_, ?_, ?_, rfl, rfl⟩
    · intro hmem
      exact (List.nodup_append.1 hnd).2.2 _ hmem _ List.mem_cons_self rfl
    · exact slots_setSlot_self hslot _
    · intro j hj
      exact s.slots_setSlot_of_ne (Ne.symm hj) _
    · simp only [setSlot, Array.size_setIfInBounds]
      exact List.perm_middle.symm.trans hs
    · intro j hj
      have hne : slot ≠ j := by
        rintro rfl
        exact hfree hj
      exact (s.slots_setSlot_of_ne hne _).trans (hv j (List.mem_cons_of_mem _ hj))

namespace Allocated
variable {used : List Nat} {slot : Nat} {e : Entry κ α}

/-- What was linked before stays linked. -/
theorem segment (h : Allocated s s' used slot e) {before after : Option Nat}
    (hrow : ∀ x ∈ row, x.slot ∈ used) (hseg : s.Segment l before row after) :
    s'.Segment l before row after :=
  hseg.congr fun x hx => h.rest _ fun heq => h.fresh (heq ▸ hrow x hx)

end Allocated

variable [DecidableEq κ]

/-- A new seat joins its row once the links around it and the ends of the list are set. -/
private theorem link_layout {s₁ s₂ : Slab κ α} {x : Seat κ α} {e : Entry κ α}
    {row' : List (Seat κ α)} {ends : Ends} (f : Ends → Ends) (h : s.Layout rows)
    (hr : rows[l]? = some row) (hk : x.key ∉ rows.flatten.map Seat.key)
    (ha : Allocated s s₁ ((row ++ others rows l).map Seat.slot) x.slot e)
    (hrel : Relinked s₁ s₂ l row) (hseg : s₂.Segment l none row' none) (hrow : row'.Perm (x :: row))
    (he : s₂.lists[l]? = some ends) (hf : f ends = endsOf row') :
    Layout { s₂.modifyEnds l f with index := s₂.index.insert x.key x.slot } (rows.set l row') := by
  have hall := hrow.append_right (others rows l)
  have hfree : ∀ j ∈ s₁.free, j ∉ row.map Seat.slot := by
    intro j hj hmem
    have hnd := ha.slots.nodup_iff.2 List.nodup_range
    refine (List.nodup_append.1 hnd).2.2 j ?_ j hj rfl
    rw [List.map_append]
    exact List.mem_cons_of_mem _ (List.mem_append_left _ hmem)
  have hc : s₂.index.contains x.key = false := by
    rw [hrel.index, ha.index]
    exact h.contains_of_notMem hk
  refine h.set hr ?_ ?_ (hseg.congr fun _ _ => rfl) ?_ ?_ ?_ ?_ ?_
  · exact (lists_modifyEnds s₂ l l f).trans (by rw [if_pos rfl, he, Option.map_some, hf])
  · intro j hj
    refine (lists_modifyEnds s₂ l j f).trans ?_
    rw [if_neg (Ne.symm hj), hrel.lists j hj, ha.lists]
  · intro y hy
    refine (hrel.slots _ (h.notMem_row hr hy)).trans (ha.rest _ fun heq => ha.fresh ?_)
    rw [List.map_append, ← heq]
    exact List.mem_append_right _ (List.mem_map_of_mem hy)
  · have hs := ha.slots
    rw [← hrel.free, ← hrel.size] at hs
    exact ((hall.map _).append_right _).trans hs
  · intro j hj
    rw [show ({ s₂.modifyEnds l f with index := s₂.index.insert x.key x.slot } : Slab κ α).free
      = s₁.free from hrel.free] at hj
    exact (hrel.slots j (hfree j hj)).trans (ha.vacant j hj)
  · have hi := h.index_perm hr
    rw [← ha.index, ← hrel.index] at hi
    simp only [Table.insert, hc]
    have hi' := hall.map fun y : Seat κ α => (y.key, y.slot)
    exact ((List.perm_append_singleton _ _).trans (hi.cons _)).trans hi'.symm
  · refine (hall.map _).nodup_iff.2 (List.nodup_cons.2 ⟨?_, h.keys_nodup hr⟩)
    exact fun hmem => hk (((flatten_perm hr).map _).mem_iff.2 hmem)

namespace Layout

theorem pushFront_of_mem (h : s.Layout rows) {k : κ} (hk : k ∈ rows.flatten.map Seat.key) (l : Nat)
    (a : α) : s.pushFront l k a = .ok (false, s) := by
  simp only [pushFront, h.contains_iff.2 hk, if_true, pure, Except.pure]

theorem pushBack_of_mem (h : s.Layout rows) {k : κ} (hk : k ∈ rows.flatten.map Seat.key) (l : Nat)
    (a : α) : s.pushBack l k a = .ok (false, s) := by
  simp only [pushBack, h.contains_iff.2 hk, if_true, pure, Except.pure]

omit [DecidableEq κ] in
/-- The slot of a new entry is off the row, and the row and its ends are what they were. -/
private theorem alloc_beside (h : s.Layout rows) (hr : rows[l]? = some row) (e : Entry κ α) :
    ∃ slot s', s.alloc e = (slot, s') ∧ Allocated s s' ((row ++ others rows l).map Seat.slot) slot e ∧
      slot ∉ row.map Seat.slot ∧ s'.Segment l none row none ∧ s'.lists[l]? = some (endsOf row) := by
  obtain ⟨slot, s', halloc, ha⟩ := alloc_spec (h.slots_perm hr) h.vacant e
  have hused : ∀ x ∈ row, x.slot ∈ (row ++ others rows l).map Seat.slot := fun x hx =>
    List.mem_map_of_mem (List.mem_append_left _ hx)
  have hnew : slot ∉ row.map Seat.slot := by
    intro hmem
    apply ha.fresh
    rw [List.map_append]
    exact List.mem_append_left _ hmem
  have he : s'.lists[l]? = some (endsOf row) := by rw [ha.lists, h.ends l, hr, Option.map_some]
  exact ⟨slot, s', halloc, ha, hnew, ha.segment hused (h.segment hr), he⟩

/-- A new key becomes the first of its list. -/
theorem pushFront (h : s.Layout rows) (hr : rows[l]? = some row) {k : κ}
    (hk : k ∉ rows.flatten.map Seat.key) (a : α) :
    ∃ slot s', s.pushFront l k a = .ok (true, s') ∧ s'.Layout (rows.set l (⟨slot, k, a⟩ :: row)) := by
  obtain ⟨slot, s₁, halloc, ha, hnew, hseg₁, he⟩ := h.alloc_beside hr
    ⟨k, a, l, none, firstSlot row none⟩
  obtain ⟨s₂, hlink, hrel, hseg, he₂⟩ := linkPrev_spec hseg₁ (h.row_nodup hr) he (some slot)
  refine ⟨slot, _, ?_, link_layout (x := ⟨slot, k, a⟩)
    (fun ends => { ends with head := some slot, length := ends.length + 1 }) h hr hk ha hrel
    ⟨(hrel.slots slot hnew).trans ha.entry, hseg⟩ (.refl _) he₂ rfl⟩
  simp only [Slab.pushFront, h.contains_of_notMem hk, h.ends_eq hr, endsOf, halloc, hlink, bind,
    Except.bind, pure, Except.pure, Bool.false_eq_true, if_false]
  rfl

/-- A new key becomes the last of its list. -/
theorem pushBack (h : s.Layout rows) (hr : rows[l]? = some row) {k : κ}
    (hk : k ∉ rows.flatten.map Seat.key) (a : α) :
    ∃ slot s', s.pushBack l k a = .ok (true, s') ∧ s'.Layout (rows.set l (row ++ [⟨slot, k, a⟩])) := by
  obtain ⟨slot, s₁, halloc, ha, hnew, hseg₁, he⟩ := h.alloc_beside hr
    ⟨k, a, l, lastSlot none row, none⟩
  obtain ⟨s₂, hlink, hrel, hseg, he₂⟩ := linkNext_spec hseg₁ (h.row_nodup hr) he (some slot)
  have hends : endsOf (row ++ [⟨slot, k, a⟩]) =
      ⟨firstSlot row (some slot), some slot, row.length + 1⟩ := by
    rw [endsOf, firstSlot_append, lastSlot_append, List.length_append]
    rfl
  refine ⟨slot, _, ?_, link_layout (x := ⟨slot, k, a⟩)
    (fun ends => { ends with tail := some slot, length := ends.length + 1 }) h hr hk ha hrel
    (segment_append.2 ⟨hseg, (hrel.slots slot hnew).trans ha.entry, trivial⟩)
    (List.perm_append_singleton _ _) he₂ hends.symm⟩
  simp only [Slab.pushBack, h.contains_of_notMem hk, h.ends_eq hr, endsOf, halloc, hlink, bind,
    Except.bind, pure, Except.pure, Bool.false_eq_true, if_false]
  rfl

end Layout
end DatanodeLedger.Slab
