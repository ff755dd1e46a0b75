import DatanodeLedger.Proofs.Slab.Shown

/-! A slab behaves as the plain lists it shows: operation by operation, hence in every run. -/
namespace DatanodeLedger.Slab
variable {κ α : Type} [DecidableEq κ] {s : Slab κ α} {m : Plain κ α}

theorem Shows.removeFrom (h : s.Shows m) (l : Nat) (k : κ) :
    s.removeFrom l k =
      if m.owner? k = some l then (s.remove k).map fun (found, s) => (found.map Prod.snd, s)
      else .ok (none, s) := by
  simp only [Slab.removeFrom, h.listOf?_eq, bind, Except.bind, pure, Except.pure]
  split
  · cases s.remove k <;> rfl
  · rfl

/-- Unlinking a key answers with its list and its value, if it is linked at all. -/
theorem Shows.remove_eq (h : s.Shows m) (k : κ) :
    ∃ s', s.remove k = .ok ((m.owner? k).bind fun l => (m.value? k).map (l, ·), s') ∧
      s'.Shows (m.without k) := by
  by_cases hk : k ∈ m.keys
  · obtain ⟨l, row, hl, hkr⟩ := Plain.exists_row hk
    obtain ⟨⟨_, a⟩, he, rfl⟩ := List.mem_map.1 hkr
    rw [Plain.owner?_eq h.keys_nodup hl hkr, Plain.value?_eq h.keys_nodup hl he]
    obtain ⟨pre, post, rfl⟩ := List.append_of_mem he
    obtain ⟨s', hrem, hs'⟩ := h.remove hl
    exact ⟨s', hrem, Plain.without_eq h.keys_nodup hl ▸ hs'⟩
  · rw [Plain.owner?_of_notMem hk, Plain.without_of_notMem hk]
    exact ⟨s, h.remove_of_notMem hk, h⟩

omit [DecidableEq κ] in
private theorem modify_eq_set {l : Nat} {row : List (κ × α)} (h : m[l]? = some row)
    (f : List (κ × α) → List (κ × α)) : m.modify l f = m.set l (f row) := by
  rw [List.modify_eq_set_getElem?, h]
  rfl

/-- Operation by operation, the slab answers as the plain lists do and shows what they become. -/
theorem Shows.perform (h : s.Shows m) {op : Op κ α} (hop : op.Within m.length) :
    ∃ s', s.perform op = .ok ((m.perform op).1, s') ∧ s'.Shows (m.perform op).2 := by
  cases op with
  | pushFront l k a =>
    by_cases hk : k ∈ m.keys
    · refine ⟨s, ?_, by simpa only [Plain.perform, if_pos hk] using h⟩
      simp only [Slab.perform, (h.push_refused hk l a).1, Plain.perform, if_pos hk, Except.map]
    · have hl := List.getElem?_eq_getElem hop
      obtain ⟨s', hpush, hs'⟩ := h.pushFront hl hk a
      refine ⟨s', ?_, ?_⟩
      · simp only [Slab.perform, hpush, Plain.perform, if_neg hk, Except.map]
      · rw [Plain.perform, if_neg hk, modify_eq_set hl]
        exact hs'
  | pushBack l k a =>
    by_cases hk : k ∈ m.keys
    · refine ⟨s, ?_, by simpa only [Plain.perform, if_pos hk] using h⟩
      simp only [Slab.perform, (h.push_refused hk l a).2, Plain.perform, if_pos hk, Except.map]
    · have hl := List.getElem?_eq_getElem hop
      obtain ⟨s', hpush, hs'⟩ := h.pushBack hl hk a
      refine ⟨s', ?_, ?_⟩
      · simp only [Slab.perform, hpush, Plain.perform, if_neg hk, Except.map]
      · rw [Plain.perform, if_neg hk, modify_eq_set hl]
        exact hs'
  | remove k =>
    obtain ⟨s', hrem, hs'⟩ := h.remove_eq k
    exact ⟨s', by simp only [Slab.perform, hrem, Plain.perform, Except.map], hs'⟩
  | removeFrom l k =>
    obtain ⟨s', hrem, hs'⟩ := h.remove_eq k
    by_cases ho : m.owner? k = some l
    · refine ⟨s', ?_, by simpa only [Plain.perform, if_pos ho] using hs'⟩
      rw [Slab.perform, h.removeFrom, if_pos ho, hrem, Plain.perform, if_pos ho, ho]
      cases m.value? k <;> rfl
    · refine ⟨s, ?_, by simpa only [Plain.perform, if_neg ho] using h⟩
      simp only [Slab.perform, h.removeFrom, if_neg ho, Plain.perform, Except.map]
  | clearList l =>
    have hl := List.getElem?_eq_getElem hop
    obtain ⟨s', hclear, hs'⟩ := h.clearList hl
    exact ⟨s', by simp only [Slab.perform, hclear, Plain.perform, Except.map, hl, Option.getD], hs'⟩
  | clear => exact ⟨_, rfl, h.clear⟩

theorem Plain.length_perform (m : Plain κ α) (op : Op κ α) : (m.perform op).2.length = m.length := by
  cases op with
  | pushFront l k a =>
    by_cases hk : k ∈ m.keys
    · rw [Plain.perform, if_pos hk]
    · rw [Plain.perform, if_neg hk, List.length_modify]
  | pushBack l k a =>
    by_cases hk : k ∈ m.keys
    · rw [Plain.perform, if_pos hk]
    · rw [Plain.perform, if_neg hk, List.length_modify]
  | remove k => exact List.length_map _
  | removeFrom l k =>
    by_cases ho : m.owner? k = some l
    · rw [Plain.perform, if_pos ho]
      exact List.length_map _
    · rw [Plain.perform, if_neg ho]
  | clearList l => exact List.length_set
  | clear => exact List.length_map _

/-- Nothing goes wrong in a run, all its answers are those of the plain lists, and it ends in a slab
that shows what they have become. -/
theorem Shows.run (h : s.Shows m) {ops : List (Op κ α)} (hops : ∀ op ∈ ops, op.Within m.length) :
    ∃ s', s.run ops = .ok ((m.run ops).1, s') ∧ s'.Shows (m.run ops).2 ∧
      (m.run ops).2.length = m.length := by
  induction ops generalizing s m with
  | nil => exact ⟨s, rfl, h, rfl⟩
  | cons op ops ih =>
    obtain ⟨s₁, hstep, h₁⟩ := h.perform (hops op List.mem_cons_self)
    have hlen := m.length_perform op
    obtain ⟨s', hrun, hs', hlen'⟩ := ih h₁ fun o ho => hlen ▸ hops o (List.mem_cons_of_mem op ho)
    refine ⟨s', ?_, hs', hlen'.trans hlen⟩
    simp only [Slab.run, hstep, hrun, bind, Except.bind, pure, Except.pure]
    rfl

/-- Whatever is asked of the slab, it answers as the lists do, and it refuses a key that they hold
without any change. -/
structure Agrees (s : Slab κ α) (m : Plain κ α) : Prop where
  entries : ∀ l row, m[l]? = some row → s.entries l = .ok row
  walks : ∀ l row, m[l]? = some row → ∃ ends, s.ends l = .ok ends ∧
    s.Walk l Entry.next ends.head row ∧ s.Walk l Entry.prev ends.tail row.reverse
  length : ∀ l row, m[l]? = some row → s.length l = .ok row.length
  size : s.size = m.flatten.length
  isEmpty : s.isEmpty = m.flatten.isEmpty
  get? : ∀ k, s.get? k = .ok (m.value? k)
  listOf? : ∀ k, s.listOf? k = .ok (m.owner? k)
  contains : ∀ k, s.contains k = true ↔ k ∈ m.keys
  refused : ∀ k ∈ m.keys, ∀ l a, s.pushFront l k a = .ok (false, s) ∧ s.pushBack l k a = .ok (false, s)

theorem Shows.agrees (h : s.Shows m) : s.Agrees m where
  entries _ _ hl := h.entries_eq hl
  walks _ _ hl := h.walks hl
  length _ _ hl := h.length_eq hl
  size := h.size_eq
  isEmpty := by
    rw [isEmpty, h.size_eq]
    cases m.flatten <;> rfl
  get? := h.get?_eq
  listOf? := h.listOf?_eq
  contains _ := h.contains_iff
  refused _ hk l a := h.push_refused hk l a

/-- A slab of `n` empty lists does in every run what plain lists do, and no run comes upon a slot
without an entry, an entry of a wrong list or a length that is too small. -/
theorem run_refines_lists (n : Nat) (ops : List (Op κ α)) (hops : ∀ op ∈ ops, op.Within n) :
    ∃ s answers m, run (withLists n) ops = .ok (answers, s) ∧
      Plain.run (List.replicate n []) ops = (answers, m) ∧
      m.length = n ∧ m.keys.Nodup ∧ s.Agrees m := by
  have hn : (List.replicate n ([] : List (κ × α))).length = n := List.length_replicate
  obtain ⟨s, hrun, hs, hlen⟩ := (withLists_shows n).run fun op hop => hn.symm ▸ hops op hop
  exact ⟨s, _, _, hrun, rfl, hlen.trans hn, hs.keys_nodup, hs.agrees⟩

/-- The slot of a removed entry is taken by an entry of the other list. -/
theorem run_refines_lists_reused_slot :
    let ops : List (Op Nat Nat) := [.pushFront 0 1 10, .pushFront 0 2 20, .remove 2,
      .pushBack 1 3 30, .pushBack 0 3 31, .pushBack 0 4 40, .removeFrom 1 4, .clearList 0]
    (∀ op ∈ ops, op.Within 2) ∧
      ∃ s answers m, run (withLists 2) ops = .ok (answers, s) ∧
        Plain.run (List.replicate 2 []) ops = (answers, m) ∧
        m.length = 2 ∧ m.keys.Nodup ∧ s.Agrees m :=
  ⟨by decide, run_refines_lists 2 _ (by decide)⟩

end DatanodeLedger.Slab
