import DatanodeLedger.Proofs.Slab.Refinement
import DatanodeLedger.Proofs.Slab.Slots
import DatanodeLedger.Proofs.Slab.Stepping
import Mathlib.Order.Bounds.Basic

/-! The books of a slab over a whole run. The free list and the index tell who sits in which slot and which are
vacant, and there are as many slots as there ever were entries linked at once. -/
namespace DatanodeLedger.Slab
variable {κ α : Type} {s s' : Slab κ α} {m : Plain κ α} {rows : List (List (Seat κ α))} {i : Nat}

/-- The keys that are met on the lists, walking each from its head. -/
def linkedKeys (s : Slab κ α) : Except Fault (List κ) :=
  ((List.range s.lists.size).mapM s.entries).map Plain.keys

namespace Layout

/-- The slots of the seats are occupied and no others are. -/
theorem tenant?_eq_some_iff (h : s.Layout rows) {t : Tenant κ α} :
    s.tenant? i = some t ↔ ∃ row, rows[t.list]? = some row ∧ ⟨i, t.key, t.value⟩ ∈ row := by
  constructor
  · intro ht
    obtain ⟨e, he, rfl⟩ := Option.map_eq_some_iff.1 ht
    have hslot : s.slots[i]? = some (some e) := Option.join_eq_some_iff.1 he
    obtain ⟨row, hrow, hi⟩ := h.exists_seat hslot
    obtain ⟨x, hx, rfl⟩ := List.mem_map.1 hi
    obtain ⟨e', he', hkey, hvalue, -⟩ := h.entry_eq hrow hx
    rw [entry_of_slot hslot] at he'
    cases he'
    refine ⟨row, hrow, ?_⟩
    rw [show (⟨x.slot, e.tenant.key, e.tenant.value⟩ : Seat κ α) = ⟨x.slot, x.key, x.value⟩ from
      congrArg₂ (Seat.mk x.slot) hkey hvalue]
    exact hx
  · rintro ⟨row, hrow, hx⟩
    obtain ⟨pre, post, rfl⟩ := List.append_of_mem hx
    exact tenant?_of_slot (h.slot_eq hrow)

theorem mem_free_iff (h : s.Layout rows) : i ∈ s.free ↔ s.slots[i]? = some none := by
  refine ⟨h.vacant i, fun hi => ?_⟩
  have hlt : i < s.slots.size := (Array.getElem?_eq_some_iff.1 hi).1
  rcases List.mem_append.1 (h.slots.mem_iff.2 (List.mem_range.2 hlt)) with hseat | hfree
  · obtain ⟨x, hx, rfl⟩ := List.mem_map.1 hseat
    obtain ⟨row, hrow, hx⟩ := List.mem_flatten.1 hx
    obtain ⟨l, hl⟩ := List.getElem?_of_mem hrow
    have ht := (h.tenant?_eq_some_iff (t := ⟨x.key, x.value, l⟩)).2 ⟨row, hl, hx⟩
    rw [tenant?_of_slot hi] at ht
    cases ht
  · exact hfree

theorem free_nodup (h : s.Layout rows) : s.free.Nodup :=
  (List.nodup_append.1 (h.slots.nodup_iff.2 List.nodup_range)).2.1

theorem length_add_free (h : s.Layout rows) : rows.flatten.length + s.free.length = s.slots.size := by
  have hlen := h.slots.length_eq
  rwa [List.length_append, List.length_map, List.length_range] at hlen

theorem size_lists (h : s.Layout rows) : s.lists.size = rows.length := by
  have hlists : s.lists.toList = rows.map endsOf := by
    refine List.ext_getElem? fun l => ?_
    rw [Array.getElem?_toList, h.ends l, List.getElem?_map]
  rw [← Array.length_toList, hlists, List.length_map]

/-- The slot that is handed out next is not occupied. -/
theorem tenant?_headD (h : s.Layout rows) : s.tenant? (s.free.headD s.slots.size) = none := by
  cases hf : s.free with
  | nil => exact tenant?_of_size_le (Nat.le_refl _)
  | cons slot free =>
    have hslot : slot ∈ s.free := hf ▸ List.mem_cons_self
    exact tenant?_of_slot (h.vacant slot hslot)

/-- The index leads to whoever sits in a slot, and to nobody else. -/
theorem find?_index_iff [DecidableEq κ] (h : s.Layout rows) {k : κ} :
    s.index.find? k = some i ↔ ∃ t, s.tenant? i = some t ∧ t.key = k := by
  constructor
  · intro hfind
    by_cases hk : k ∈ rows.flatten.map Seat.key
    · obtain ⟨x, hx, rfl⟩ := List.mem_map.1 hk
      rw [h.find?_index hx] at hfind
      cases hfind
      obtain ⟨row, hrow, hx⟩ := List.mem_flatten.1 hx
      obtain ⟨l, hl⟩ := List.getElem?_of_mem hrow
      exact ⟨⟨x.key, x.value, l⟩, h.tenant?_eq_some_iff.2 ⟨row, hl, hx⟩, rfl⟩
    · rw [h.find?_index_of_notMem hk] at hfind
      cases hfind
  · rintro ⟨t, ht, rfl⟩
    obtain ⟨row, hrow, hx⟩ := h.tenant?_eq_some_iff.1 ht
    exact h.find?_index (mem_flatten hrow hx)

end Layout

private theorem mapM_range_eq {β : Type} {f : Nat → Except Fault β} {rows : List β}
    (h : ∀ l row, rows[l]? = some row → f l = .ok row) :
    (List.range rows.length).mapM f = .ok rows := by
  induction rows using List.reverseRecOn with
  | nil => rfl
  | append_singleton rows row ih =>
    have hrows : (List.range rows.length).mapM f = .ok rows := by
      refine ih fun l row' hl => h l row' ?_
      rwa [List.getElem?_append_left (List.getElem?_eq_some_iff.1 hl).1]
    have hrow : f rows.length = .ok row := h _ _ List.getElem?_concat_length
    rw [List.length_append, List.length_singleton, List.range_succ, List.mapM_append, hrows,
      List.mapM_cons, List.mapM_nil, hrow]
    rfl

namespace Shows

theorem linkedKeys_eq (h : s.Shows m) : s.linkedKeys = .ok m.keys := by
  have hsize : s.lists.size = m.length := by
    obtain ⟨rows, hlay, rfl⟩ := h
    rw [hlay.size_lists, plain, List.length_map]
  rw [linkedKeys, hsize, mapM_range_eq fun l row hl => h.entries_eq hl]
  rfl

theorem keys_index (h : s.Shows m) : s.index.keys.Perm m.keys := by
  obtain ⟨rows, hlay, rfl⟩ := h
  rw [keys_plain]
  exact hlay.keys_index

theorem length_add_free (h : s.Shows m) : m.keys.length + s.free.length = s.slots.size := by
  obtain ⟨rows, hlay, rfl⟩ := h
  rw [keys_plain, List.length_map]
  exact hlay.length_add_free

theorem length_keys_of_size (h : s.Shows m) (hempty : s.slots.size = 0) : m.keys.length = 0 :=
  (Nat.add_eq_zero_iff.1 (h.length_add_free.trans hempty)).1

end Shows

variable [DecidableEq κ] {op : Op κ α} {ops : List (Op κ α)} {answer : Answer α}
  {answers : List (Answer α)} {n count : Nat}

/-- Whoever sits in a slot keeps it or leaves it vacant, and whoever comes gets the slot that was vacated last, or
a new one if none is vacant. -/
structure Allots (s s' : Slab κ α) : Prop where
  live : ∀ i t, s.tenant? i = some t → s'.tenant? i = some t ∨ s'.tenant? i = none
  new : ∀ i t, s.tenant? i = none → s'.tenant? i = some t → i = s.free.headD s.slots.size

theorem Layout.allots (h : s.Layout rows) (hstep : s.perform op = .ok (answer, s')) : s.Allots s' := by
  by_cases hop : op = .clear
  · subst hop
    cases hstep
    exact ⟨fun _ _ _ => .inr rfl, fun _ _ _ ht => nomatch ht⟩
  rcases perform_cases hstep hop with ⟨-, hrel⟩ | ⟨-, -, hocc⟩
  · refine ⟨fun i t ht => (hrel.tenant i).imp_left fun heq => heq.trans ht, fun i t hnone ht => ?_⟩
    rcases hrel.tenant i with heq | hgone
    · rw [heq, hnone] at ht
      cases ht
    · rw [hgone] at ht
      cases ht
  · refine ⟨fun i t ht => .inl ?_, fun i t hnone ht => ?_⟩
    · refine (hocc.tenant i fun heq => ?_).trans ht
      rw [heq, h.tenant?_headD] at ht
      cases ht
    · by_contra hi
      rw [hocc.tenant i hi, hnone] at ht
      cases ht

/-- So many entries were linked at once at a moment of a run on `n` lists, and the slab has not been emptied
since. -/
def Attained (n : Nat) (ops : List (Op κ α)) (count : Nat) : Prop :=
  ∃ before after answers s keys, ops = before ++ after ∧ Op.clear ∉ after ∧
    run (withLists n) before = .ok (answers, s) ∧ s.linkedKeys = .ok keys ∧ keys.length = count

theorem exists_run (n : Nat) (hops : ∀ op ∈ ops, op.Within n) :
    ∃ answers s m, run (withLists n) ops = .ok (answers, s) ∧ s.Shows m ∧ m.length = n := by
  have hn : (List.replicate n ([] : List (κ × α))).length = n := List.length_replicate
  obtain ⟨s, hrun, hs, hlen⟩ := (withLists_shows n).run fun op hop => hn.symm ▸ hops op hop
  exact ⟨_, s, _, hrun, hs, hlen.trans hn⟩

/-- Unless it empties the slab, an operation leaves as many slots as there were, or as many as are linked now if
these are more. -/
theorem Shows.size_perform (h : s'.Shows m) (hstep : s.perform op = .ok (answer, s')) (hop : op ≠ .clear) :
    s'.slots.size = max m.keys.length s.slots.size := by
  have hlen := h.length_add_free
  rcases perform_cases hstep hop with ⟨-, hrel⟩ | ⟨-, -, hocc⟩
  · have hsize := hrel.size
    omega
  · have hsize := hocc.size
    split at hsize
    · -- the new slot is the last one, so nothing is vacant
      have hfree := hocc.free
      rename_i hfull
      rw [hfull, List.tail_nil] at hfree
      rw [hfree, List.length_nil] at hlen
      omega
    · omega

theorem attained_nil : Attained n ([] : List (Op κ α)) count ↔ count = 0 := by
  have hstart := withLists_shows (κ := κ) (α := α) n
  have hnone := hstart.length_keys_of_size rfl
  constructor
  · rintro ⟨before, after, answers, s, keys, happ, -, hrun, hkeys, rfl⟩
    obtain ⟨rfl, -⟩ := List.append_eq_nil_iff.1 happ.symm
    cases hrun
    rw [hstart.linkedKeys_eq] at hkeys
    cases hkeys
    exact hnone
  · rintro rfl
    exact ⟨[], [], [], withLists n, _, rfl, List.not_mem_nil, rfl, hstart.linkedKeys_eq, hnone⟩

/-- What was attained before one more operation still counts unless that one empties the slab. -/
theorem attained_concat (hrun : run (withLists n) (ops ++ [op]) = .ok (answers, s)) (h : s.Shows m) :
    Attained n (ops ++ [op]) count ↔ count = m.keys.length ∨ op ≠ .clear ∧ Attained n ops count := by
  constructor
  · rintro ⟨before, after, answers', s', keys, happ, hclear, hrun', hkeys, rfl⟩
    rcases List.eq_nil_or_concat' after with rfl | ⟨after, last, rfl⟩
    · rw [List.append_nil] at happ
      subst happ
      rw [hrun] at hrun'
      cases hrun'
      rw [h.linkedKeys_eq] at hkeys
      cases hkeys
      exact .inl rfl
    · rw [← List.append_assoc] at happ
      obtain ⟨rfl, hlast⟩ := List.append_inj' happ rfl
      cases hlast
      rw [List.mem_append, not_or, List.mem_singleton] at hclear
      exact .inr ⟨Ne.symm hclear.2, before, after, answers', s', keys, rfl, hclear.1, hrun', hkeys, rfl⟩
  · rintro (rfl | ⟨hop, before, after, answers', s', keys, rfl, hclear, hrun', hkeys, rfl⟩)
    · exact ⟨_, [], answers, s, _, (List.append_nil _).symm, List.not_mem_nil, hrun, h.linkedKeys_eq, rfl⟩
    · refine ⟨before, after ++ [op], answers', s', keys, List.append_assoc .., ?_, hrun', hkeys, rfl⟩
      rw [List.mem_append, not_or, List.mem_singleton]
      exact ⟨hclear, Ne.symm hop⟩

/-- The slots are as many as the most entries that were linked at once. -/
theorem isGreatest_size (hops : ∀ op ∈ ops, op.Within n) (hrun : run (withLists n) ops = .ok (answers, s)) :
    IsGreatest {count | Attained n ops count} s.slots.size := by
  induction ops using List.reverseRecOn generalizing s answers with
  | nil =>
    cases hrun
    simp only [attained_nil]
    exact isGreatest_singleton
  | append_singleton ops op ih =>
    obtain ⟨answers₁, s₁, m₁, hrun₁, hs₁, hlen⟩ :=
      exists_run n fun o ho => hops o (List.mem_append_left _ ho)
    have hwithin : op.Within m₁.length := hlen.symm ▸ hops op (List.mem_append_right _ List.mem_cons_self)
    obtain ⟨s₂, hstep, hs₂⟩ := hs₁.perform hwithin
    have hrun₂ := run_concat hrun₁ hstep
    rw [hrun] at hrun₂
    cases hrun₂
    simp only [attained_concat hrun hs₂]
    by_cases hop : op = .clear
    · subst hop
      cases hstep
      simp only [hs₂.length_keys_of_size rfl, ne_eq, not_true_eq_false, false_and, or_false]
      exact isGreatest_singleton
    · rw [hs₂.size_perform hstep hop]
      simp only [hop, ne_eq, not_false_eq_true, true_and]
      exact (ih (fun o ho => hops o (List.mem_append_left _ ho)) hrun₁).insert _

/-- The books of a slab that a run on `n` lists has led to. -/
structure Accounted (n : Nat) (ops : List (Op κ α)) (s : Slab κ α) : Prop where
  /-- the free list holds the vacant slots and no others, each once -/
  free : ∀ i, i ∈ s.free ↔ s.slots[i]? = some none
  once : s.free.Nodup
  /-- the keys of the index are those on the lists -/
  keys : ∃ keys, s.linkedKeys = .ok keys ∧ keys.Nodup ∧ s.index.keys.Perm keys
  /-- a key leads to the slot where its entry sits, and there is no entry that its key does not lead to -/
  index : ∀ k i, s.index.find? k = some i ↔ ∃ t, s.tenant? i = some t ∧ t.key = k
  /-- there are as many slots as the most entries that were linked at once -/
  size : IsGreatest {count | Attained n ops count} s.slots.size
  /-- whatever is done next, no slot changes hands while it is occupied -/
  allots : ∀ op : Op κ α, op.Within n → ∃ answer s', s.perform op = .ok (answer, s') ∧ s.Allots s'
  /-- however long entries are unlinked and linked from here on, no slot is added, unless at some moment more have
  been linked than had been unlinked before and fit into the vacant slots -/
  churn : ∀ later : List (Op κ α), (∀ op ∈ later, op.Within n) → .clear ∉ later →
    ∃ answers s', s.run later = .ok (answers, s') ∧
      (s'.slots.size = s.slots.size ↔ Churns s.free.length answers)

/-- Every run of a slab of `n` empty lists comes to its end and leaves the books in order. -/
theorem slots_accounted (n : Nat) (ops : List (Op κ α)) (hops : ∀ op ∈ ops, op.Within n) :
    ∃ answers s, run (withLists n) ops = .ok (answers, s) ∧ s.Accounted n ops := by
  obtain ⟨answers, s, m, hrun, hs, hlen⟩ := exists_run n hops
  have ⟨rows, hlay, _⟩ := hs
  refine ⟨answers, s, hrun, ?_⟩
  exact {
    free := fun _ => hlay.mem_free_iff
    once := hlay.free_nodup
    keys := ⟨m.keys, hs.linkedKeys_eq, hs.keys_nodup, hs.keys_index⟩
    index := fun _ _ => hlay.find?_index_iff
    size := isGreatest_size hops hrun
    allots := fun op hop => by
      obtain ⟨s', hstep, -⟩ := hs.perform (hlen.symm ▸ hop)
      exact ⟨_, s', hstep, hlay.allots hstep⟩
    churn := fun later hlater hclear => by
      obtain ⟨s', hrun', -⟩ := hs.run fun op hop => hlen.symm ▸ hlater op hop
      exact ⟨_, s', hrun', size_run_eq_iff hrun' hclear⟩ }

/-- Entries are unlinked one by one and by the list, the slab is emptied once, and slots are handed out again. -/
theorem slots_accounted_after_churn :
    let ops : List (Op Nat Nat) := [.pushBack 0 1 10, .pushBack 1 2 20, .clear, .pushBack 0 1 11, .pushBack 0 2 21,
      .pushFront 1 3 31, .remove 2, .pushBack 1 4 41, .clearList 1, .pushFront 0 5 51, .removeFrom 0 1]
    (∀ op ∈ ops, op.Within 2) ∧ ∃ answers s, run (withLists 2) ops = .ok (answers, s) ∧ s.Accounted 2 ops :=
  ⟨by decide, slots_accounted 2 _ (by decide)⟩

end DatanodeLedger.Slab
