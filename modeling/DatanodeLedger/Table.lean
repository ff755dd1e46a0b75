/-! Finite tables from keys to values. The entries keep the order in which their keys were first
inserted. -/
namespace DatanodeLedger

structure Table (κ α : Type) where
  entries : List (κ × α) := []
  deriving Repr

namespace Table
variable {κ α : Type} [DecidableEq κ]

def empty : Table κ α := {}

def find? (t : Table κ α) (k : κ) : Option α :=
  (t.entries.find? fun entry => entry.1 = k).map Prod.snd

def contains (t : Table κ α) (k : κ) : Bool := t.entries.any fun entry => entry.1 = k

/-- Without the key, wherever it stands. -/
def erase (t : Table κ α) (k : κ) : Table κ α := ⟨t.entries.filter fun entry => entry.1 ≠ k⟩

/-- With the value of the key replaced in its place, or added at the end. -/
def insert (t : Table κ α) (k : κ) (a : α) : Table κ α :=
  if t.contains k then ⟨t.entries.map fun entry => if entry.1 = k then (k, a) else entry⟩
  else ⟨t.entries ++ [(k, a)]⟩

def size (t : Table κ α) : Nat := t.entries.length

def keys (t : Table κ α) : List κ := t.entries.map Prod.fst

def values (t : Table κ α) : List α := t.entries.map Prod.snd

theorem isSome_find? (t : Table κ α) (k : κ) : (t.find? k).isSome = t.contains k := by
  simp only [find?, contains, Option.isSome_map]
  induction t.entries with
  | nil => rfl
  | cons e rest ih => by_cases h : e.1 = k <;> simp [h, ih]

theorem find?_insert_self (t : Table κ α) (k : κ) (a : α) : (t.insert k a).find? k = some a := by
  have ⟨entries⟩ := t
  unfold insert
  split <;> rename_i h <;> simp only [contains, find?] at *
  · induction entries with
    | nil => simp at h
    | cons e rest ih =>
      by_cases he : e.1 = k
      · simp [he]
      · simp only [List.any_cons, he, decide_false, Bool.false_or] at h
        rw [List.map_cons, if_neg he, List.find?_cons_of_neg (by simpa using he), ih h]
  · have : entries.find? (fun entry => entry.1 = k) = none :=
      List.find?_eq_none.2 fun e he hk => h (List.any_eq_true.2 ⟨e, he, hk⟩)
    simp [this]

theorem find?_insert_of_ne (t : Table κ α) {j k : κ} (h : j ≠ k) (a : α) :
    (t.insert k a).find? j = t.find? j := by
  unfold insert find?
  split <;> simp only
  · induction t.entries with
    | nil => rfl
    | cons e rest ih =>
      simp only [List.map_cons, List.find?_cons]
      by_cases he : e.1 = k
      · simp only [he, h.symm, decide_false, if_true]
        exact ih
      · by_cases hj : e.1 = j
        · simp [hj, h]
        · simp only [he, hj, decide_false, if_false]
          exact ih
  · simp [h.symm]

theorem find?_erase_self (t : Table κ α) (k : κ) : (t.erase k).find? k = none := by
  simp [erase, find?]

theorem find?_erase_of_ne (t : Table κ α) {j k : κ} (h : j ≠ k) :
    (t.erase k).find? j = t.find? j := by
  rw [find?, erase, List.find?_filter, find?]
  congr 2
  funext entry
  by_cases hj : entry.1 = j <;> simp [hj, h]

theorem contains_iff {t : Table κ α} {k : κ} : t.contains k = true ↔ k ∈ t.keys := by
  simp [contains, keys]

/-- As long as no key occurs twice, the entry of a key is what is found under it. -/
theorem find?_eq_some_iff {t : Table κ α} (h : t.keys.Nodup) {k : κ} {a : α} :
    t.find? k = some a ↔ (k, a) ∈ t.entries := by
  obtain ⟨entries⟩ := t
  unfold keys at h
  unfold find?
  induction entries with
  | nil => simp
  | cons e rest ih =>
    obtain ⟨j, b⟩ := e
    simp only [List.map_cons, List.nodup_cons] at h
    by_cases hj : j = k
    · have hrest : (k, a) ∉ rest := fun hk => h.1 (hj ▸ List.mem_map_of_mem hk)
      simp [hj, hrest, eq_comm]
    · simp [hj, Ne.symm hj, ih h.2]

theorem find?_eq_none_iff {t : Table κ α} {k : κ} : t.find? k = none ↔ k ∉ t.keys := by
  simp [← contains_iff, ← isSome_find?]

/-- A key that is present keeps its place, and a new one comes last. -/
theorem keys_insert (t : Table κ α) (k : κ) (a : α) :
    (t.insert k a).keys = if t.contains k then t.keys else t.keys ++ [k] := by
  unfold insert
  split
  · simp only [keys, List.map_map]
    refine List.map_congr_left fun e _ => ?_
    simp only [Function.comp]
    split <;> simp_all
  · simp [keys]

/-- A key that is new is entered last. -/
theorem entries_insert_of_find? {t : Table κ α} {k : κ} (h : t.find? k = none) (a : α) :
    (t.insert k a).entries = t.entries ++ [(k, a)] := by
  have hk : ¬ t.contains k = true := by rw [← isSome_find?, h]; exact Bool.false_ne_true
  unfold insert
  rw [if_neg hk]

theorem mem_values_insert {t : Table κ α} {k : κ} {a x : α} (h : x ∈ (t.insert k a).values) :
    x ∈ t.values ∨ x = a := by
  unfold insert values at h
  split at h
  · obtain ⟨j, hj⟩ := List.mem_map.1 h
    obtain ⟨e, he, rfl⟩ := List.mem_map.1 hj.1
    have hx := hj.2
    split at hx
    · exact .inr hx.symm
    · exact .inl (List.mem_map.2 ⟨e, he, hx⟩)
  · rw [List.map_append, List.mem_append] at h
    rcases h with h | h
    · exact .inl h
    · exact .inr (List.mem_singleton.1 h)

theorem mem_values_of_mem_erase {t : Table κ α} {k : κ} {x : α} (h : x ∈ (t.erase k).values) :
    x ∈ t.values := by
  obtain ⟨e, he, rfl⟩ := List.mem_map.1 h
  exact List.mem_map_of_mem (List.mem_filter.1 he).1

theorem mem_values_of_find? {t : Table κ α} {k : κ} {a : α} (h : t.find? k = some a) : a ∈ t.values := by
  obtain ⟨e, he, rfl⟩ := Option.map_eq_some_iff.1 h
  exact List.mem_map_of_mem (List.mem_of_find?_eq_some he)

theorem keys_erase (t : Table κ α) (k : κ) :
    (t.erase k).keys = t.keys.filter fun j => j ≠ k := by
  simp [erase, keys, List.filter_map, Function.comp_def]

theorem keys_nodup_erase {t : Table κ α} (h : t.keys.Nodup) (k : κ) : (t.erase k).keys.Nodup := by
  rw [keys_erase]
  exact h.filter _

theorem keys_nodup_insert {t : Table κ α} (h : t.keys.Nodup) (k : κ) (a : α) : (t.insert k a).keys.Nodup := by
  rw [keys_insert]
  split
  · exact h
  · rename_i hk
    refine List.nodup_append.2 ⟨h, (List.nodup_cons.2 ⟨List.not_mem_nil, List.nodup_nil⟩), fun j hj i hi => ?_⟩
    rw [List.mem_singleton.1 hi]
    rintro rfl
    exact hk (contains_iff.2 hj)

/-- A value that is taken out is the only one that is missing then. -/
theorem values_perm_erase {t : Table κ α} (h : t.keys.Nodup) {k : κ} {a : α} (hk : t.find? k = some a) :
    t.values.Perm (a :: (t.erase k).values) := by
  obtain ⟨entries⟩ := t
  induction entries with
  | nil => cases hk
  | cons e rest ih =>
    obtain ⟨hnew, hrest⟩ := List.nodup_cons.1 h
    by_cases he : e.1 = k
    · have hea : e.2 = a := by
        have hfound : (Table.mk (e :: rest)).find? k = some e.2 := by simp [find?, he]
        exact Option.some.inj (hfound.symm.trans hk)
      have hkeep : rest.filter (fun entry => entry.1 ≠ k) = rest := by
        refine List.filter_eq_self.2 fun entry hentry => decide_eq_true fun hek => hnew ?_
        have hmem : entry.1 ∈ rest.map Prod.fst := List.mem_map_of_mem hentry
        rwa [hek, ← he] at hmem
      simp only [values, erase, List.map_cons, List.filter_cons, he, hkeep, hea, ne_eq, not_true_eq_false,
        decide_false, Bool.false_eq_true, if_false]
      exact List.Perm.refl _
    · have hfound : (Table.mk rest).find? k = some a := by simpa [find?, he] using hk
      have hperm := (ih hrest hfound).cons e.2
      refine hperm.trans ((List.Perm.swap a e.2 _).trans ?_)
      simp only [values, erase, List.filter_cons, he, ne_eq, not_false_eq_true, decide_true, if_true, List.map_cons]
      exact List.Perm.refl _

theorem values_insert_of_find? {t : Table κ α} {k : κ} (h : t.find? k = none) (a : α) :
    (t.insert k a).values = t.values ++ [a] := by
  unfold values
  rw [entries_insert_of_find? h, List.map_append]
  rfl

omit [DecidableEq κ] in
theorem size_eq_length_values (t : Table κ α) : t.size = t.values.length := (List.length_map _).symm

end Table
end DatanodeLedger
