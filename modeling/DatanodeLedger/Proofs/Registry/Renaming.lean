import DatanodeLedger.Proofs.Registry.Operations
import Mathlib.Logic.Equiv.Defs

/-! Records under other names. What a node has besides its volumes does not depend on their names, and neither does
what it takes in and gives out. -/
namespace DatanodeLedger

namespace Table
variable {κ α β γ : Type} [DecidableEq κ]

/-- The table with other values under its keys. -/
def mapValues (f : α → β) (t : Table κ α) : Table κ β := ⟨t.entries.map fun entry => (entry.1, f entry.2)⟩

omit [DecidableEq κ] in
theorem values_mapValues (f : α → β) (t : Table κ α) : (t.mapValues f).values = t.values.map f := by
  simp [values, mapValues, Function.comp_def]

theorem find?_mapValues (f : α → β) (t : Table κ α) (k : κ) : (t.mapValues f).find? k = (t.find? k).map f := by
  simp [find?, mapValues, List.find?_map, Function.comp_def]

theorem mapValues_insert (f : α → β) (t : Table κ α) (k : κ) (a : α) :
    (t.insert k a).mapValues f = (t.mapValues f).insert k (f a) := by
  have hcontains : (t.mapValues f).contains k = t.contains k := by
    rw [← isSome_find?, ← isSome_find?, find?_mapValues, Option.isSome_map]
  unfold insert
  rw [hcontains]
  split
  · simp only [mapValues, List.map_map, Table.mk.injEq]
    refine List.map_congr_left fun entry _ => ?_
    simp only [Function.comp]
    split <;> rfl
  · simp [mapValues]

omit [DecidableEq κ] in
theorem mapValues_congr {f g : α → β} {t : Table κ α} (h : ∀ a ∈ t.values, f a = g a) :
    t.mapValues f = t.mapValues g := by
  simp only [mapValues, Table.mk.injEq]
  exact List.map_congr_left fun entry hentry => by rw [h entry.2 (List.mem_map_of_mem hentry)]

omit [DecidableEq κ] in
theorem mapValues_mapValues (f : α → β) (g : β → γ) (t : Table κ α) :
    (t.mapValues f).mapValues g = t.mapValues (g ∘ f) := by
  simp [mapValues, Function.comp_def]

omit [DecidableEq κ] in
theorem mapValues_id (t : Table κ α) : t.mapValues id = t := by simp [mapValues]

omit [DecidableEq κ] in
theorem keys_mapValues (f : α → β) (t : Table κ α) : (t.mapValues f).keys = t.keys := by
  simp [keys, mapValues, Function.comp_def]

/-- Tables that hold the same under every key have the same entries. -/
theorem entries_perm {t t' : Table κ α} (ht : t.keys.Nodup) (ht' : t'.keys.Nodup)
    (h : ∀ k, t'.find? k = t.find? k) : t'.entries.Perm t.entries := by
  refine (List.perm_ext_iff_of_nodup (ht'.of_map _) (ht.of_map _)).2 fun ⟨k, a⟩ => ?_
  rw [← find?_eq_some_iff ht, ← find?_eq_some_iff ht', h]

end Table

/-- The number of a record that is made after `k` others, if it is made after `k'` others instead. -/
def renumber (k k' i : Nat) : Nat := if i < k then i else i - k + k'

theorem renumber_of_lt {k i : Nat} (h : i < k) (k' : Nat) : renumber k k' i = i := if_pos h

theorem renumber_of_le {k i : Nat} (h : k ≤ i) (k' : Nat) : renumber k k' i = i - k + k' :=
  if_neg (Nat.not_lt.2 h)

/-- Where there are no fewer records before, no two come to have one number. -/
theorem renumber_inj {k k' i j : Nat} (hk : k ≤ k') (h : renumber k k' i = renumber k k' j) : i = j := by
  unfold renumber at h
  split at h <;> split at h <;> omega

/-- Where as many records have been made after both, as many numbers are taken. -/
theorem renumber_lt_iff {k k' m m' i : Nat} (hk : k ≤ k') (hm : k ≤ m) (hsize : m' + k = m + k') :
    renumber k k' i < m' ↔ i < m := by
  unfold renumber
  split <;> omega

theorem renumber_size {k k' m m' : Nat} (hm : k ≤ m) (hsize : m' + k = m + k') : renumber k k' m = m' := by
  rw [renumber_of_le hm]
  omega

/-- The numbers of records, where after `k` others first `i` records are made and then `j`, if those `j` are made
before those `i`. -/
def exchange (k i j : Nat) : Equiv.Perm Nat where
  toFun x := if x < k then x else if x < k + i then x + j else if x < k + i + j then x - i else x
  invFun x := if x < k then x else if x < k + j then x + i else if x < k + j + i then x - j else x
  left_inv x := by grind
  right_inv x := by grind

section exchange
variable {k a b x : Nat}

theorem exchange_of_lt (h : x < k) (i j : Nat) : exchange k i j x = x := if_pos h

theorem exchange_eq_renumber (hb : k ≤ b) (h : x < a) : exchange k (a - k) (b - k) x = renumber k b x := by
  show (if x < k then _ else if x < k + (a - k) then _ else _) = if x < k then _ else _
  grind

theorem exchange_renumber (ha : k ≤ a) (h : x < b) : exchange k (a - k) (b - k) (renumber k a x) = x := by
  show (if renumber k a x < k then _ else if renumber k a x < k + (a - k) then _ else _) = _
  unfold renumber
  grind

theorem exchange_of_le (ha : k ≤ a) (hb : k ≤ b) (h : a + b ≤ x + k) : exchange k (a - k) (b - k) x = x := by
  show (if x < k then _ else if x < k + (a - k) then _ else _) = _
  grind

/-- Of the records that there are after both, some are about the one thing and some are about the other, and those
that are about neither have been there before. -/
theorem made_cases (ha : k ≤ a) (hb : k ≤ b) {P Q : Nat → Prop} (hP : ∀ x, k ≤ x → P x) (hQ : ∀ x, k ≤ x → Q x)
    (x : Nat) : (P x ∧ x < a) ∨ (∃ y, Q y ∧ y < b ∧ renumber k a y = x) ∨ (x < k ∧ ¬ P x ∧ ¬ Q x) ∨ a + b ≤ x + k := by
  by_cases hx : x < k
  · by_cases hp : P x
    · exact .inl ⟨hp, by omega⟩
    · by_cases hq : Q x
      · exact .inr (.inl ⟨x, hq, by omega, renumber_of_lt hx a⟩)
      · exact .inr (.inr (.inl ⟨hx, hp, hq⟩))
  · by_cases hxa : x < a
    · exact .inl ⟨hP x (by omega), hxa⟩
    · by_cases hlt : x + k < a + b
      · refine .inr (.inl ⟨x - a + k, hQ _ (by omega), by omega, ?_⟩)
        rw [renumber_of_le (by omega)]
        omega
      · exact .inr (.inr (.inr (by omega)))

end exchange

namespace NodeRef

def renumber (k k' : Nat) (n : NodeRef) : NodeRef := ⟨DatanodeLedger.renumber k k' n.index⟩

def exchange (k i j : Nat) : Equiv.Perm NodeRef where
  toFun n := ⟨DatanodeLedger.exchange k i j n.index⟩
  invFun n := ⟨(DatanodeLedger.exchange k i j).symm n.index⟩
  left_inv n := congrArg mk (Equiv.symm_apply_apply _ n.index)
  right_inv n := congrArg mk (Equiv.apply_symm_apply _ n.index)

end NodeRef

namespace StorageRef

def renumber (k k' : Nat) (v : StorageRef) : StorageRef := ⟨DatanodeLedger.renumber k k' v.index⟩

def exchange (k i j : Nat) : Equiv.Perm StorageRef where
  toFun v := ⟨DatanodeLedger.exchange k i j v.index⟩
  invFun v := ⟨(DatanodeLedger.exchange k i j).symm v.index⟩
  left_inv v := congrArg mk (Equiv.symm_apply_apply _ v.index)
  right_inv v := congrArg mk (Equiv.apply_symm_apply _ v.index)

end StorageRef

/-- The node with other names for its volumes. Transfers go to volumes that have been there before, and keep their
names. -/
def Node.rename (f : StorageRef → StorageRef) (node : Node) : Node :=
  { node with storages := node.storages.mapValues f }

namespace Answer

/-- The node that an answer names. -/
def node? : Answer → Option NodeRef
  | registered n => some n
  | removed n => n
  | _ => none

def rename (f : NodeRef → NodeRef) : Answer → Answer
  | registered n => registered (f n)
  | removed n => removed (n.map f)
  | answer => answer

theorem rename_rename (f g : NodeRef → NodeRef) (answer : Answer) :
    (answer.rename f).rename g = answer.rename (g ∘ f) := by
  cases answer <;> simp [rename]

theorem rename_congr {f g : NodeRef → NodeRef} {answer : Answer} (h : ∀ n ∈ answer.node?, f n = g n) :
    answer.rename f = answer.rename g := by
  cases answer with
  | registered n => exact congrArg registered (h n rfl)
  | removed n => exact congrArg removed (Option.map_congr h)
  | commands _ => rfl
  | changed _ => rfl

theorem rename_eq_self {f : NodeRef → NodeRef} {answer : Answer} (h : ∀ n ∈ answer.node?, f n = n) :
    answer.rename f = answer := by
  rw [rename_congr h]
  cases answer <;> simp [rename]

end Answer

namespace Node
variable (f g : StorageRef → StorageRef) (node : Node)

theorem values_rename : (node.rename f).storages.values = node.storages.values.map f :=
  Table.values_mapValues f node.storages

theorem find?_rename (id : String) : (node.rename f).storages.find? id = (node.storages.find? id).map f :=
  Table.find?_mapValues f node.storages id

theorem rename_rename : (node.rename f).rename g = node.rename (g ∘ f) := by
  simp only [rename, Table.mapValues_mapValues]

variable {f g node} in
theorem rename_congr (h : ∀ v ∈ node.storages.values, f v = g v) : node.rename f = node.rename g := by
  simp only [rename, Table.mapValues_congr h]

variable {f node} in
theorem rename_eq_self (h : ∀ v ∈ node.storages.values, f v = v) : node.rename f = node := by
  rw [rename_congr (g := id) h]
  simp only [rename, Table.mapValues_id]

theorem knows_rename (r : StorageReport) : (node.rename f).knows r = node.knows r := by
  simp [knows, find?_rename]

theorem receive_rename (now : UInt64) (h : Heartbeat) :
    (node.rename f).receive now h = (node.receive now h).rename f := by
  have hknows : (node.rename f).knows = node.knows := funext (node.knows_rename f)
  simp only [receive, hknows]
  rfl

theorem serve_rename (limits : Limits) : (node.rename f).serve limits =
    ((node.serve limits).1, (node.serve limits).2.1, (node.serve limits).2.2.rename f) := by
  have hpoll : (node.rename f).recoveries = node.recoveries := rfl
  unfold serve pollRecoveries
  rw [hpoll]
  cases node.recoveries.poll limits.maxRecoveryStreams.toNat with
  | mk batch rest => cases batch <;> rfl

/-- What goes out to a node leaves its volumes alone. -/
theorem storages_serve (limits : Limits) : (node.serve limits).2.2.storages = node.storages := by
  unfold serve pollRecoveries
  cases node.recoveries.poll limits.maxRecoveryStreams.toNat with
  | mk batch rest => cases batch <;> rfl

/-- Transfers go out to a node, and none comes in. -/
theorem transfers_serve (limits : Limits) : (node.serve limits).2.2.transfers.items ⊆ node.transfers.items := by
  have hpolled : (node.transfers.poll limits.maxReplicationStreams.toNat).2.items ⊆ node.transfers.items := by
    rw [← node.transfers.poll_append limits.maxReplicationStreams.toNat]
    exact List.subset_append_right _ _
  unfold serve pollRecoveries
  cases node.recoveries.poll limits.maxRecoveryStreams.toNat with
  | mk batch rest =>
    cases batch with
    | none => exact hpolled
    | some batch => exact List.Subset.refl _

end Node
end DatanodeLedger
