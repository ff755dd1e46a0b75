import DatanodeLedger.Proofs.Slab.Shown

/-! Steps from a slot that was remembered while the arena may have changed. Whatever has come of the slot, it
holds a seat of the list now, and the rest of the list lies behind it, or there is nothing to step on. As long
as seats are only taken away, those that are left stay in their slots. -/
namespace DatanodeLedger.Slab
variable {κ α : Type} {s : Slab κ α} {l i : Nat} {row : List (Seat κ α)} {rows : List (List (Seat κ α))}

namespace Layout

/-- Every entry in the arena is a seat of the list that it names. -/
theorem exists_seat (h : s.Layout rows) {e : Entry κ α} (he : s.slots[i]? = some (some e)) :
    ∃ row, rows[e.list]? = some row ∧ i ∈ row.map Seat.slot := by
  have hlt : i < s.slots.size := (Array.getElem?_eq_some_iff.1 he).1
  have hmem : i ∈ rows.flatten.map Seat.slot ++ s.free := h.slots.mem_iff.2 (List.mem_range.2 hlt)
  rcases List.mem_append.1 hmem with hmem | hfree
  · obtain ⟨x, hx, rfl⟩ := List.mem_map.1 hmem
    obtain ⟨row, hrow, hx⟩ := List.mem_flatten.1 hx
    obtain ⟨j, hj⟩ := List.getElem?_of_mem hrow
    obtain ⟨pre, post, rfl⟩ := List.append_of_mem hx
    have hseat := h.slot_eq hj
    rw [he] at hseat
    cases hseat
    exact ⟨_, hj, List.mem_map_of_mem hx⟩
  · rw [h.vacant i hfree] at he
    cases he

/-- The links behind a seat lead over the end of the list that begins with it. -/
theorem walk_from {pre post : List (Seat κ α)} {x : Seat κ α} (h : s.Layout rows)
    (hr : rows[l]? = some (pre ++ x :: post)) :
    s.Walk l Entry.next (some x.slot) ((x :: post).map Seat.pair) :=
  (segment_append.1 (h.segment hr)).2.walk

/-- There is no step from a slot that the list does not sit in. -/
theorem step_of_notMem (h : s.Layout rows) (hr : rows[l]? = some row) (hi : i ∉ row.map Seat.slot) :
    s.step l i = none := by
  unfold step
  rcases hslot : s.slots[i]? with _ | _ | e
  · rfl
  · rfl
  · refine if_neg fun hl => ?_
    obtain ⟨row', hr', hmem⟩ := h.exists_seat hslot
    rw [hl, hr] at hr'
    cases hr'
    exact hi hmem

end Layout

/-- A seat that is left of a row has in front of it and behind it what is left of those that were there. -/
theorem exists_split_of_sublist {row row' : List (Seat κ α)} (h : row'.Sublist row)
    (hi : i ∈ row'.map Seat.slot) : ∃ (x : Seat κ α) (pre post pre' post' : List (Seat κ α)), x.slot = i ∧
      row = pre ++ x :: post ∧ row' = pre' ++ x :: post' ∧ pre'.Sublist pre ∧ post'.Sublist post := by
  induction h with
  | slnil => cases hi
  | cons y hsub ih =>
    obtain ⟨x, pre, post, pre', post', hx, rfl, rfl, hpre, hpost⟩ := ih hi
    exact ⟨x, y :: pre, post, pre', post', hx, rfl, rfl, hpre.cons y, hpost⟩
  | cons_cons y hsub ih =>
    rcases List.mem_cons.1 hi with rfl | hi
    · exact ⟨y, [], _, [], _, rfl, rfl, rfl, .slnil, hsub⟩
    · obtain ⟨x, pre, post, pre', post', hx, rfl, rfl, hpre, hpost⟩ := ih hi
      exact ⟨x, y :: pre, post, y :: pre', post', hx, rfl, rfl, hpre.cons_cons y, hpost⟩

/-- The one list of the slab has lost seats at most. -/
def Sheds (s s' : Slab κ α) : Prop := ∀ row, s.Layout [row] → ∃ row', s'.Layout [row'] ∧ row'.Sublist row

namespace Sheds
variable {s' s'' : Slab κ α}

theorem refl (s : Slab κ α) : s.Sheds s := fun row h => ⟨row, h, .refl row⟩

theorem trans (h : s.Sheds s') (h' : s'.Sheds s'') : s.Sheds s'' := by
  intro row hrow
  obtain ⟨row', hrow', hsub⟩ := h row hrow
  obtain ⟨row'', hrow'', hsub'⟩ := h' row' hrow'
  exact ⟨row'', hrow'', hsub'.trans hsub⟩

theorem of_remove [DecidableEq κ] {k : κ} {removed : Option (Nat × α)} (h : s.remove k = .ok (removed, s')) :
    s.Sheds s' := by
  intro row hrow
  by_cases hk : k ∈ [row].flatten.map Seat.key
  · rw [List.flatten_cons, List.flatten_nil, List.append_nil] at hk
    obtain ⟨x, hx, rfl⟩ := List.mem_map.1 hk
    obtain ⟨pre, post, rfl⟩ := List.append_of_mem hx
    obtain ⟨s₁, hremove, hlay⟩ := hrow.remove (l := 0) rfl
    rw [h] at hremove
    cases hremove
    exact ⟨pre ++ post, hlay, (List.sublist_cons_self x post).append_left pre⟩
  · rw [hrow.remove_of_notMem hk] at h
    cases h
    exact ⟨row, hrow, .refl row⟩

end Sheds

end DatanodeLedger.Slab
