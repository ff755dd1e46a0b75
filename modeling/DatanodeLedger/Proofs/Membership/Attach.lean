import DatanodeLedger.Proofs.Membership.Coherent

/-! Attaching a block to a volume and detaching it, on a ledger whose lists and back-references agree.
Neither comes upon a fault, and each changes the two sides together. -/
namespace DatanodeLedger.Ledger
variable {l : Ledger} {s : StorageRef} {b : BlockRef}

/-- A record with the id of the block is on the list of the volume, be it the block itself or a twin. -/
def Occupied (l : Ledger) (s : StorageRef) (b : BlockRef) : Prop :=
  (l.block b).block.id ∈ (l.listed s).map fun c => (l.block c).block.id

instance (l : Ledger) (s : StorageRef) (b : BlockRef) : Decidable (l.Occupied s b) :=
  inferInstanceAs (Decidable (_ ∈ _))

theorem occupied_of_mem (h : b ∈ l.listed s) : l.Occupied s b := List.mem_map_of_mem h

/-- Attaching a block is refused, or pushes it onto the list of the volume and adds a back-reference to the block. -/
theorem attach_cases {added : Bool} {l' : Ledger} (h : l.attach s b = .ok (added, l')) :
    added = false ∧ l' = l ∨ added = true ∧ ∃ pushed blocks,
      (l.storage s).blocks.pushFront Storage.blockList (l.block b).block.id b = .ok (pushed, blocks) ∧
        l' = l.rewrite s b blocks (l.holders b ++ [s]) := by
  unfold attach at h
  simp only [bind, Except.bind, pure, Except.pure] at h
  split at h
  · cases h
    exact .inl ⟨rfl, rfl⟩
  · split at h
    · cases h
    · rename_i p hpush
      cases h
      exact .inr ⟨rfl, p.1, p.2, hpush, rfl⟩

/-- Detaching a block is refused, or takes it off the list of the volume and drops the back-reference of the block. -/
theorem detach_cases {removed : Bool} {l' : Ledger} (h : l.detach s b = .ok (removed, l')) :
    removed = false ∧ l' = l ∨ removed = true ∧ ∃ found blocks,
      (l.storage s).blocks.remove (l.block b).block.id = .ok (found, blocks) ∧
        l' = l.rewrite s b blocks (swapRemove s (l.block b).holders) := by
  unfold detach at h
  simp only [bind, Except.bind, pure, Except.pure] at h
  split at h
  · cases h
  · split at h
    · split at h
      · cases h
      · rename_i p hremove
        cases h
        exact .inr ⟨rfl, p.1, p.2, hremove, modifyBlock_congr (l := l.modifyStorage s _) rfl⟩
    · cases h
      exact .inl ⟨rfl, rfl⟩

namespace Coherent

theorem contains_iff (h : l.Coherent) (s : StorageRef) (b : BlockRef) :
    (l.storage s).blocks.contains (l.block b).block.id = true ↔ l.Occupied s b := by
  rw [(h.shown s).contains_iff, Occupied]
  simp only [Slab.Plain.keys, row, List.flatten_cons, List.flatten_nil, List.append_nil, List.map_map,
    Function.comp_def]

theorem lists_eq (h : l.Coherent) (s : StorageRef) (b : BlockRef) :
    l.lists s b = .ok (decide (b ∈ l.listed s)) := by
  have hget : (l.storage s).blocks.get? (l.block b).block.id = .ok
      (Slab.Plain.value? [l.row s] (l.block b).block.id) := (h.shown s).get?_eq _
  have hnd : (Slab.Plain.keys [l.row s]).Nodup := (h.shown s).keys_nodup
  have hval : Slab.Plain.value? [l.row s] (l.block b).block.id = some b ↔ b ∈ l.listed s := by
    have hfind := Table.find?_eq_some_iff (t := ⟨[l.row s].flatten⟩) hnd
      (k := (l.block b).block.id) (a := b)
    refine Iff.trans hfind ?_
    simp only [List.flatten_cons, List.flatten_nil, List.append_nil, row, List.mem_map, Prod.mk.injEq]
    constructor
    · rintro ⟨c, hc, -, rfl⟩
      exact hc
    · intro hb
      exact ⟨b, hb, rfl, rfl⟩
  simp only [lists, hget, bind, Except.bind, pure, Except.pure, hval]

theorem attach_refused (h : l.Coherent) (ho : l.Occupied s b) : l.attach s b = .ok (false, l) := by
  have hc := (h.contains_iff s b).2 ho
  simp only [attach, hc, Bool.true_or, if_true]
  rfl

/-- A block is put in front of a list that holds no record with its id, and refers back to the volume
last. Back-references to volumes that are gone are dropped. -/
theorem attach (h : l.Coherent) (hs : s.index < l.storages.size) (hlive : l.isLive s = true)
    (hb : b.index < l.blocks.size) (ho : ¬ l.Occupied s b) :
    ∃ l', l.attach s b = .ok (true, l') ∧ l.Rewritten s b (b :: l.listed s) (l.holders b ++ [s]) l' := by
  have hmem : b ∉ l.listed s := fun hb => ho (occupied_of_mem hb)
  have href : s ∉ (l.block b).holders := fun hs => hmem ((h.mirror s b hlive).2 hs)
  have hc : (l.storage s).blocks.contains (l.block b).block.id = false :=
    Bool.eq_false_iff.2 fun hc => ho ((h.contains_iff s b).1 hc)
  have hr : l.refersTo b s = false :=
    Bool.eq_false_iff.2 fun hr => href (List.contains_iff_mem.1 hr)
  have hkey : (l.block b).block.id ∉ Slab.Plain.keys [l.row s] := by
    rw [← (h.shown s).contains_iff, hc]
    exact Bool.false_ne_true
  obtain ⟨blocks, hpush, hshow⟩ := (h.shown s).pushFront (l := Storage.blockList) rfl hkey b
  refine ⟨l.rewrite s b blocks (l.holders b ++ [s]), ?_, h.rewritten ⟨hs, hb, ?_, ?_, ?_, ?_, ?_⟩ hshow⟩
  · simp only [Ledger.attach, hc, hr, Bool.or_self, Bool.false_eq_true, if_false, hpush, bind, Except.bind,
      pure, Except.pure]
    rfl
  · simp
  · intro c hcb
    simp [hcb]
  · intro t ht htlive
    simp [holders, ht, htlive]
  · intro t ht
    rcases List.mem_append.1 ht with ht | ht
    · exact h.known b t (List.mem_of_mem_filter ht)
    · exact List.mem_singleton.1 ht ▸ hs
  · refine List.nodup_append.2 ⟨h.holders_nodup b, List.nodup_singleton s, fun t ht u hu => ?_⟩
    rw [List.mem_singleton.1 hu]
    rintro rfl
    exact href (List.mem_of_mem_filter ht)

theorem detach_refused (h : l.Coherent) (hb : b ∉ l.listed s) : l.detach s b = .ok (false, l) := by
  simp only [detach, h.lists_eq, decide_eq_false hb, bind, Except.bind]
  rfl

/-- A block that is on a list is taken out of it and no longer refers back to the volume. -/
theorem detach (h : l.Coherent) (hb : b ∈ l.listed s) :
    ∃ l', l.detach s b = .ok (true, l') ∧
      l.Rewritten s b ((l.listed s).erase b) (swapRemove s (l.block b).holders) l' := by
  have hnd := h.listed_nodup s
  obtain ⟨pre, post, hsplit⟩ := List.append_of_mem hb
  have hpre : b ∉ pre := fun hp => by
    rw [hsplit, List.nodup_middle, List.nodup_cons] at hnd
    exact hnd.1 (List.mem_append_left _ hp)
  have hrow : [l.row s][Storage.blockList]? = some
      (pre.map (fun c => ((l.block c).block.id, c)) ++
        ((l.block b).block.id, b) :: post.map fun c => ((l.block c).block.id, c)) := by
    rw [row, hsplit, List.map_append, List.map_cons]
    rfl
  obtain ⟨blocks, hrem, hshow⟩ := (h.shown s).remove hrow
  have herase : (l.listed s).erase b = pre ++ post := by
    rw [hsplit, List.erase_append_right _ hpre, List.erase_cons_head]
  refine ⟨l.rewrite s b blocks (swapRemove s (l.block b).holders), ?_,
    h.rewritten ⟨lt_size_of_mem_listed hb, h.made s b hb, ?_, ?_, ?_, ?_, ?_⟩ ?_⟩
  · simp only [Ledger.detach, h.lists_eq, decide_eq_true hb, bind, Except.bind, if_true, hrem, pure,
      Except.pure]
    exact congrArg (fun l' => Except.ok (true, l')) (modifyBlock_congr (l := l.modifyStorage s _) rfl)
  · rw [mem_swapRemove (h.once b), hnd.mem_erase_iff]
    simp
  · intro c hcb
    rw [hnd.mem_erase_iff]
    simp [hcb]
  · intro t ht _
    rw [mem_swapRemove (h.once b)]
    simp [ht]
  · intro t ht
    exact h.known b t ((mem_swapRemove (h.once b)).1 ht).2
  · exact nodup_swapRemove (h.once b) s
  · rw [herase, List.map_append]
    exact hshow

end Coherent
end DatanodeLedger.Ledger
