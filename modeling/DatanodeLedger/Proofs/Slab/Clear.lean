import DatanodeLedger.Proofs.Slab.Walk

/-! Emptying a list, slot by slot from head to tail, and emptying the whole slab. -/
namespace DatanodeLedger.Slab
variable {κ α : Type} {s s' : Slab κ α} {l : Nat} {row : List (Seat κ α)}
  {rows : List (List (Seat κ α))}

theorem Layout.clear (h : s.Layout rows) : s.clear.Layout (rows.map fun _ => []) where
  ends l := by
    simp only [Slab.clear, Array.getElem?_map, List.getElem?_map, h.ends l, Option.map_map]
    rfl
  segment hr := by
    rw [List.getElem?_map] at hr
    obtain ⟨_, -, rfl⟩ := Option.map_eq_some_iff.1 hr
    trivial
  slots := by simp [Slab.clear]
  vacant := by simp [Slab.clear]
  index := by simp [Slab.clear]
  keys := by simp

variable [DecidableEq κ]

/-- The slots of a row have been given back and its keys forgotten; the ends of the lists are still
to be set. -/
structure Vacated (s s' : Slab κ α) (row : List (Seat κ α)) : Prop where
  lists : s'.lists = s.lists
  rest : ∀ j, j ∉ row.map Seat.slot → s'.slots[j]? = s.slots[j]?
  gaps : ∀ x ∈ row, s'.slots[x.slot]? = some none
  size : s'.slots.size = s.slots.size
  free : s'.free = (row.map Seat.slot).reverse ++ s.free
  index : s'.index.entries = s.index.entries.filter fun e => e.1 ∉ row.map Seat.key

theorem vacate_spec {before : Option Nat} (h : s.Segment l before row none)
    (hd : (row.map Seat.slot).Nodup) {fuel : Nat} (hf : row.length ≤ fuel) :
    ∃ s', s.vacate fuel (firstSlot row none) = .ok (row.length, s') ∧ Vacated s s' row := by
  induction row generalizing s before fuel with
  | nil =>
    refine ⟨s, by cases fuel <;> rfl, ⟨rfl, fun _ _ => rfl, ?_, rfl, rfl, ?_⟩⟩
    · simp
    · simp
  | cons x rest ih =>
    obtain ⟨hx, hrest⟩ := h
    obtain ⟨hxr, hd⟩ := List.nodup_cons.1 hd
    cases fuel with
    | zero => simp at hf
    | succ fuel =>
      let s₁ : Slab κ α :=
        { s.setSlot x.slot none with index := s.index.erase x.key, free := x.slot :: s.free }
      have hne : ∀ j, j ≠ x.slot → s₁.slots[j]? = s.slots[j]? := fun j hj =>
        s.slots_setSlot_of_ne (Ne.symm hj) _
      have hseg : s₁.Segment l (some x.slot) rest none :=
        hrest.congr fun y hy => hne _ fun heq => hxr (heq ▸ List.mem_map_of_mem hy)
      obtain ⟨s', hrun, hv⟩ := ih hseg hd (Nat.le_of_succ_le_succ hf)
      refine ⟨s', ?_, ⟨hv.lists, ?_, ?_, ?_, ?_, ?_⟩⟩
      · rw [firstSlot_cons, vacate, entry_of_slot hx]
        change (s₁.vacate fuel (firstSlot rest none) >>= fun r => pure (r.1 + 1, r.2)) = _
        rw [hrun]
        rfl
      · intro j hj
        obtain ⟨hjx, hj⟩ := not_or.1 (mt List.mem_cons.2 hj)
        exact (hv.rest j hj).trans (hne j hjx)
      · intro y hy
        rcases List.mem_cons.1 hy with rfl | hy
        · exact (hv.rest _ hxr).trans (slots_setSlot_self hx _)
        · exact hv.gaps y hy
      · exact hv.size.trans Array.size_setIfInBounds
      · rw [hv.free, List.map_cons, List.reverse_cons, List.append_assoc]
        rfl
      · rw [hv.index]
        simp only [s₁, Table.erase, List.filter_filter, List.map_cons, List.mem_cons, not_or,
          ne_eq, Bool.decide_and, Bool.and_comm]

/-- The emptied list has no seats any more, and its length is answered. -/
theorem Layout.clearList (h : s.Layout rows) (hr : rows[l]? = some row) :
    ∃ s', s.clearList l = .ok (row.length, s') ∧ s'.Layout (rows.set l []) := by
  obtain ⟨s₁, hrun, hv⟩ := vacate_spec (h.segment hr) (h.row_nodup hr) (h.length_le hr)
  have hkeys := h.keys_nodup hr
  rw [List.map_append, List.nodup_append] at hkeys
  refine ⟨s₁.modifyEnds l fun _ => {}, ?_, h.set hr ?_ ?_ trivial ?_ ?_ ?_ ?_ hkeys.2.1⟩
  · simp only [Slab.clearList, h.head_eq hr, hrun, bind, Except.bind, pure, Except.pure]
  · have hl := h.ends l
    rw [hr, Option.map_some] at hl
    rw [lists_modifyEnds, if_pos rfl, hv.lists, hl]
    rfl
  · intro j hj
    rw [lists_modifyEnds, if_neg (Ne.symm hj), hv.lists]
  · intro x hx
    exact hv.rest _ (h.notMem_row hr hx)
  · have hs := h.slots_perm hr
    rw [List.map_append] at hs
    change ((others rows l).map Seat.slot ++ s₁.free).Perm (List.range s₁.slots.size)
    rw [hv.free, hv.size, ← List.append_assoc]
    refine List.Perm.trans (List.Perm.append_right _ ?_) hs
    exact List.perm_append_comm.trans ((List.reverse_perm _).append_right _)
  · intro j hj
    have hj' : j ∈ (row.map Seat.slot).reverse ++ s.free := by
      rw [← hv.free]
      exact hj
    rcases List.mem_append.1 hj' with hj' | hj'
    · obtain ⟨x, hx, rfl⟩ := List.mem_map.1 (List.mem_reverse.1 hj')
      exact hv.gaps x hx
    · refine (hv.rest j fun hmem => h.free_disjoint hj' ?_).trans (h.vacant j hj')
      obtain ⟨x, hx, rfl⟩ := List.mem_map.1 hmem
      exact List.mem_map_of_mem (mem_flatten hr hx)
  · change s₁.index.entries.Perm ((others rows l).map fun x => (x.key, x.slot))
    rw [hv.index]
    refine ((h.index_perm hr).filter _).trans ?_
    rw [List.map_append, List.filter_append, List.filter_eq_nil_iff.2, List.filter_eq_self.2]
    · exact .refl _
    · intro e he
      obtain ⟨y, hy, rfl⟩ := List.mem_map.1 he
      refine decide_eq_true fun hmem => ?_
      exact hkeys.2.2 _ hmem _ (List.mem_map_of_mem hy) rfl
    · intro e he
      obtain ⟨y, hy, rfl⟩ := List.mem_map.1 he
      simpa using ⟨y, hy, rfl⟩

end DatanodeLedger.Slab
