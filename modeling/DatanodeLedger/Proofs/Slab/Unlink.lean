import DatanodeLedger.Proofs.Slab.Walk

/-! Unlinking a key: its seat leaves the row, its neighbours are joined, and its slot is vacant. -/
namespace DatanodeLedger.Slab
variable {κ α : Type} {s s' : Slab κ α} {l : Nat} {row : List (Seat κ α)}
  {rows : List (List (Seat κ α))}

/-- A piece that lies apart from the one whose links have changed. -/
theorem Relinked.segment {row' : List (Seat κ α)} (h : Relinked s s' l row)
    (hd : ∀ x ∈ row', x.slot ∉ row.map Seat.slot) {j : Nat} {before after : Option Nat}
    (hseg : s.Segment j before row' after) : s'.Segment j before row' after :=
  hseg.congr fun x hx => h.slots _ (hd x hx)

theorem Relinked.trans {s'' : Slab κ α} {row' : List (Seat κ α)} (h : Relinked s s' l row)
    (h' : Relinked s' s'' l row') : Relinked s s'' l (row ++ row') where
  slots j hj := by
    rw [List.map_append, List.mem_append, not_or] at hj
    exact (h'.slots j hj.2).trans (h.slots j hj.1)
  size := h'.size.trans h.size
  free := h'.free.trans h.free
  index := h'.index.trans h.index
  lists j hj := (h'.lists j hj).trans (h.lists j hj)

/-- The neighbours of a seat that has been taken away are joined over the gap. -/
private theorem join_spec {pre post : List (Seat κ α)} {x : Seat κ α} {n : Nat}
    (hpre : s.Segment l none pre (some x.slot)) (hpost : s.Segment l (some x.slot) post none)
    (hd : ((pre ++ post).map Seat.slot).Nodup)
    (he : s.lists[l]? = some ⟨firstSlot pre (some x.slot), lastSlot (some x.slot) post, n⟩) :
    ∃ s₁ s₂, s.linkNext l (lastSlot none pre) (firstSlot post none) = .ok s₁ ∧
      s₁.linkPrev l (firstSlot post none) (lastSlot none pre) = .ok s₂ ∧
      Relinked s s₂ l (pre ++ post) ∧ s₂.Segment l none (pre ++ post) none ∧
      s₂.lists[l]? = some ⟨firstSlot (pre ++ post) none, lastSlot none (pre ++ post), n⟩ := by
  rw [List.map_append, List.nodup_append] at hd
  obtain ⟨hdpre, hdpost, hdis⟩ := hd
  obtain ⟨s₁, hnext, hrel₁, hpre₁, he₁⟩ := linkNext_spec hpre hdpre he (firstSlot post none)
  have hpost₁ : s₁.Segment l (some x.slot) post none :=
    hrel₁.segment (fun y hy hmem => hdis _ hmem _ (List.mem_map_of_mem hy) rfl) hpost
  obtain ⟨s₂, hprev, hrel₂, hpost₂, he₂⟩ := linkPrev_spec hpost₁ hdpost he₁ (lastSlot none pre)
  have hpre₂ : s₂.Segment l none pre (firstSlot post none) :=
    hrel₂.segment (fun y hy hmem => hdis _ (List.mem_map_of_mem hy) _ hmem rfl) hpre₁
  refine ⟨s₁, s₂, hnext, hprev, hrel₁.trans hrel₂, segment_append.2 ⟨hpre₂, hpost₂⟩, ?_⟩
  rw [he₂, firstSlot_append, lastSlot_append]

/-- One seat has been taken out between two pieces of a row. -/
structure Unlinked (s s' : Slab κ α) (l : Nat) (pre : List (Seat κ α)) (x : Seat κ α)
    (post : List (Seat κ α)) : Prop where
  ends : s'.lists[l]? = some (endsOf (pre ++ post))
  lists : ∀ j, j ≠ l → s'.lists[j]? = s.lists[j]?
  segment : s'.Segment l none (pre ++ post) none
  rest : ∀ j, j ∉ (pre ++ x :: post).map Seat.slot → s'.slots[j]? = s.slots[j]?
  gap : s'.slots[x.slot]? = some none
  size : s'.slots.size = s.slots.size
  free : s'.free = x.slot :: s.free

/-- Unlinking a slot answers with its entry. What the index says by then does not matter. -/
theorem unlink_spec {pre post : List (Seat κ α)} {x : Seat κ α} (h : s.Layout rows)
    (hr : rows[l]? = some (pre ++ x :: post)) (index : Table κ Nat) :
    ∃ s', unlink { s with index } x.slot =
        .ok (⟨x.key, x.value, l, lastSlot none pre, firstSlot post none⟩, s') ∧
      Unlinked s s' l pre x post ∧ s'.index = index := by
  have hx := h.slot_eq hr
  have hnd := h.row_nodup hr
  rw [List.map_append, List.map_cons, List.nodup_middle, ← List.map_append] at hnd
  obtain ⟨hgap, hd⟩ := List.nodup_cons.1 hnd
  obtain ⟨hpre, -, hpost⟩ := segment_append.1 (h.segment hr)
  have hends := h.ends l
  rw [hr, Option.map_some, endsOf, firstSlot_append, lastSlot_append] at hends
  -- the slab with the slot emptied, before its neighbours learn of it
  let s₀ : Slab κ α := setSlot { s with index } x.slot none
  have hrest : ∀ j, j ≠ x.slot → s₀.slots[j]? = s.slots[j]? := fun j hj =>
    slots_setSlot_of_ne _ (Ne.symm hj) _
  have hempty : s₀.slots[x.slot]? = some none := slots_setSlot_self hx _
  have hkeep : ∀ y ∈ pre ++ post, s₀.slots[y.slot]? = s.slots[y.slot]? := fun y hy =>
    hrest _ fun heq => hgap (heq ▸ List.mem_map_of_mem hy)
  have hends₀ : s₀.lists[l]? = some ⟨firstSlot pre (some x.slot), lastSlot (some x.slot) post,
      (pre ++ x :: post).length⟩ := hends
  obtain ⟨s₁, s₂, hnext, hprev, hrel, hseg, hends₂⟩ := join_spec
    (hpre.congr fun y hy => hkeep y (List.mem_append_left _ hy))
    (hpost.congr fun y hy => hkeep y (List.mem_append_right _ hy)) hd hends₀
  have hlen : s₂.ends l = .ok ⟨firstSlot (pre ++ post) none, lastSlot none (pre ++ post),
      (pre ++ x :: post).length⟩ := by
    simp only [ends, hends₂]
  refine ⟨{ s₂.modifyEnds l (fun ends => { ends with length := ends.length - 1 }) with
    free := x.slot :: s₂.free }, ?_, ⟨?_, ?_, hseg.congr fun _ _ => rfl, ?_, ?_, ?_, ?_⟩, ?_⟩
  · simp only [unlink, hx, s₀, hnext, hprev, hlen, bind, Except.bind, pure, Except.pure]
    simp only [List.length_append, List.length_cons, ← Nat.add_assoc, Nat.add_eq_zero_iff,
      Nat.one_ne_zero, and_false, if_false]
    rfl
  · refine (lists_modifyEnds s₂ l l _).trans ?_
    simp [hends₂, endsOf]
  · intro j hj
    refine (lists_modifyEnds s₂ l j _).trans ?_
    rw [if_neg (Ne.symm hj)]
    exact hrel.lists j hj
  · intro j hj
    have hjx : j ≠ x.slot := by
      rintro rfl
      exact hj (List.mem_map_of_mem (by simp))
    refine (hrel.slots j fun hmem => hj ?_).trans (hrest j hjx)
    rw [List.map_append, List.mem_append] at hmem ⊢
    exact hmem.imp_right (List.mem_cons_of_mem _)
  · exact (hrel.slots _ hgap).trans hempty
  · exact hrel.size.trans Array.size_setIfInBounds
  · exact congrArg (x.slot :: ·) hrel.free
  · exact hrel.index

namespace Layout
variable [DecidableEq κ]

theorem remove_of_notMem (h : s.Layout rows) {k : κ} (hk : k ∉ rows.flatten.map Seat.key) :
    s.remove k = .ok (none, s) := by
  simp only [Slab.remove, h.find?_index_of_notMem hk]

/-- A linked key leaves its row, wherever it stands there. -/
theorem remove {pre post : List (Seat κ α)} {x : Seat κ α} (h : s.Layout rows)
    (hr : rows[l]? = some (pre ++ x :: post)) :
    ∃ s', s.remove x.key = .ok (some (l, x.value), s') ∧ s'.Layout (rows.set l (pre ++ post)) := by
  have hfind := h.find?_index (mem_flatten hr (by simp : x ∈ pre ++ x :: post))
  obtain ⟨s', hun, hs, hidx⟩ := unlink_spec h hr (s.index.erase x.key)
  have hmid : (pre ++ x :: post ++ others rows l).Perm (x :: (pre ++ post ++ others rows l)) := by
    simp
  refine ⟨s', ?_, h.set hr hs.ends hs.lists hs.segment ?_ ?_ ?_ ?_ ?_⟩
  · simp only [Slab.remove, hfind, hun, Except.map]
  · intro y hy
    exact hs.rest _ (h.notMem_row hr hy)
  · rw [hs.free, hs.size]
    refine List.perm_middle.trans (.trans ?_ (h.slots_perm hr))
    exact ((hmid.map Seat.slot).append_right s.free).symm
  · rw [hs.free]
    intro j hj
    rcases List.mem_cons.1 hj with rfl | hj
    · exact hs.gap
    · refine (hs.rest j fun hmem => h.free_disjoint hj ?_).trans (h.vacant j hj)
      obtain ⟨y, hy, rfl⟩ := List.mem_map.1 hmem
      exact List.mem_map_of_mem (mem_flatten hr hy)
  · have hkeys := ((hmid.map Seat.key).nodup_iff.1 (h.keys_nodup hr))
    rw [hidx]
    refine ((h.index_perm hr).filter _).trans ?_
    refine ((hmid.map fun y : Seat κ α => (y.key, y.slot)).filter _).trans ?_
    rw [List.map_cons, List.filter_cons_of_neg (by simp), List.filter_eq_self.2]
    intro e he
    obtain ⟨y, hy, rfl⟩ := List.mem_map.1 he
    refine decide_eq_true fun heq => (List.nodup_cons.1 hkeys).1 ?_
    exact heq ▸ List.mem_map_of_mem hy
  · exact (List.nodup_cons.1 ((hmid.map Seat.key).nodup_iff.1 (h.keys_nodup hr))).2

end Layout
end DatanodeLedger.Slab
