import DatanodeLedger.Slab
import Mathlib.Data.List.Nodup

/-! Plain lists of keys and values, side by side, and the operations of a slab as they read on them. -/
namespace DatanodeLedger.Slab
variable {κ α : Type}

/-- What can be asked of a slab that changes it. -/
inductive Op (κ α : Type) where
  | pushFront (l : Nat) (k : κ) (a : α)
  | pushBack (l : Nat) (k : κ) (a : α)
  | remove (k : κ)
  | removeFrom (l : Nat) (k : κ)
  | clearList (l : Nat)
  | clear
  deriving DecidableEq, Repr

inductive Answer (α : Type) where
  | pushed (linked : Bool)
  | removed (found : Option (Nat × α))
  | taken (value : Option α)
  | dropped (count : Nat)
  | cleared
  deriving DecidableEq, Repr

/-- The lists that an operation names are among the first `n`. -/
def Op.Within (n : Nat) : Op κ α → Prop
  | pushFront l _ _ | pushBack l _ _ | removeFrom l _ | clearList l => l < n
  | remove _ | clear => True

instance (n : Nat) (op : Op κ α) : Decidable (op.Within n) :=
  match op with
  | .pushFront .. | .pushBack .. | .removeFrom .. | .clearList _ => Nat.decLt _ _
  | .remove _ | .clear => isTrue trivial

abbrev Plain (κ α : Type) := List (List (κ × α))

variable [DecidableEq κ]

def perform (s : Slab κ α) : Op κ α → Except Fault (Answer α × Slab κ α)
  | .pushFront l k a => (s.pushFront l k a).map fun (linked, s) => (.pushed linked, s)
  | .pushBack l k a => (s.pushBack l k a).map fun (linked, s) => (.pushed linked, s)
  | .remove k => (s.remove k).map fun (found, s) => (.removed found, s)
  | .removeFrom l k => (s.removeFrom l k).map fun (value, s) => (.taken value, s)
  | .clearList l => (s.clearList l).map fun (count, s) => (.dropped count, s)
  | .clear => .ok (.cleared, s.clear)

/-- One operation after the other, with all the answers. -/
def run (s : Slab κ α) : List (Op κ α) → Except Fault (List (Answer α) × Slab κ α)
  | [] => .ok ([], s)
  | op :: ops => do
    let (answer, s) ← s.perform op
    let (answers, s) ← s.run ops
    pure (answer :: answers, s)

namespace Plain

def keys (m : Plain κ α) : List κ := m.flatten.map Prod.fst

/-- The list that holds a key. -/
def owner? (m : Plain κ α) (k : κ) : Option Nat := m.findIdx? fun row => k ∈ row.map Prod.fst

def value? (m : Plain κ α) (k : κ) : Option α := (m.flatten.find? fun e => e.1 = k).map Prod.snd

def without (m : Plain κ α) (k : κ) : Plain κ α := m.map fun row => row.filter fun e => e.1 ≠ k

def perform (m : Plain κ α) : Op κ α → Answer α × Plain κ α
  | .pushFront l k a =>
    if k ∈ m.keys then (.pushed false, m) else (.pushed true, m.modify l ((k, a) :: ·))
  | .pushBack l k a =>
    if k ∈ m.keys then (.pushed false, m) else (.pushed true, m.modify l (· ++ [(k, a)]))
  | .remove k => (.removed ((m.owner? k).bind fun l => (m.value? k).map (l, ·)), m.without k)
  | .removeFrom l k =>
    if m.owner? k = some l then (.taken (m.value? k), m.without k) else (.taken none, m)
  | .clearList l => (.dropped (m[l]?.getD []).length, m.set l [])
  | .clear => (.cleared, m.map fun _ => [])

def run (m : Plain κ α) : List (Op κ α) → List (Answer α) × Plain κ α
  | [] => ([], m)
  | op :: ops =>
    let (answer, m) := m.perform op
    let (answers, m) := run m ops
    (answer :: answers, m)

section lookup
variable {m : Plain κ α} {l : Nat} {row : List (κ × α)} {k : κ} {a : α}

omit [DecidableEq κ] in
theorem mem_keys (hl : m[l]? = some row) (hk : k ∈ row.map Prod.fst) : k ∈ m.keys := by
  obtain ⟨e, he, rfl⟩ := List.mem_map.1 hk
  exact List.mem_map_of_mem (List.mem_flatten.2 ⟨row, List.mem_of_getElem? hl, he⟩)

omit [DecidableEq κ] in
theorem exists_row (hk : k ∈ m.keys) :
    ∃ (l : Nat) (row : List (κ × α)), m[l]? = some row ∧ k ∈ row.map Prod.fst := by
  obtain ⟨e, he, rfl⟩ := List.mem_map.1 hk
  obtain ⟨row, hrow, he⟩ := List.mem_flatten.1 he
  obtain ⟨l, hl⟩ := List.getElem?_of_mem hrow
  exact ⟨l, row, hl, List.mem_map_of_mem he⟩

omit [DecidableEq κ] in
/-- Two lists that hold one key are the same list. -/
theorem index_unique (hm : m.keys.Nodup) {j : Nat} {row' : List (κ × α)} (hl : m[l]? = some row)
    (hj : m[j]? = some row') (hk : k ∈ row.map Prod.fst) (hk' : k ∈ row'.map Prod.fst) : l = j := by
  rw [keys, List.map_flatten, List.nodup_flatten] at hm
  obtain ⟨hll, rfl⟩ := List.getElem?_eq_some_iff.1 hl
  obtain ⟨hjl, rfl⟩ := List.getElem?_eq_some_iff.1 hj
  have hdis := List.pairwise_iff_getElem.1 hm.2
  simp only [List.length_map, List.getElem_map] at hdis
  rcases Nat.lt_trichotomy l j with h | h | h
  · exact (hdis l j hll hjl h hk hk').elim
  · exact h
  · exact (hdis j l hjl hll h hk' hk).elim

theorem owner?_eq (hm : m.keys.Nodup) (hl : m[l]? = some row) (hk : k ∈ row.map Prod.fst) :
    m.owner? k = some l := by
  obtain ⟨hlt, rfl⟩ := List.getElem?_eq_some_iff.1 hl
  refine List.findIdx?_eq_some_iff_getElem.2 ⟨hlt, decide_eq_true hk, fun j hj => ?_⟩
  intro hkj
  have hjl := index_unique hm hl (List.getElem?_eq_getElem (Nat.lt_trans hj hlt)) hk
    (of_decide_eq_true hkj)
  omega

theorem value?_eq (hm : m.keys.Nodup) (hl : m[l]? = some row) (hk : (k, a) ∈ row) :
    m.value? k = some a := by
  have hmem : (k, a) ∈ m.flatten := List.mem_flatten.2 ⟨row, List.mem_of_getElem? hl, hk⟩
  exact (Table.find?_eq_some_iff (t := ⟨m.flatten⟩) hm).2 hmem

theorem owner?_of_notMem (hk : k ∉ m.keys) : m.owner? k = none := by
  refine List.findIdx?_eq_none_iff.2 fun row hrow => decide_eq_false fun hkr => hk ?_
  obtain ⟨l, hl⟩ := List.getElem?_of_mem hrow
  exact mem_keys hl hkr

theorem value?_of_notMem (hk : k ∉ m.keys) : m.value? k = none :=
  (Table.find?_eq_none_iff (t := ⟨m.flatten⟩)).2 hk

theorem without_of_notMem (hk : k ∉ m.keys) : m.without k = m := by
  refine (List.map_congr_left fun row hrow => ?_).trans (List.map_id m)
  refine List.filter_eq_self.2 fun e he => decide_eq_true fun heq => hk ?_
  exact List.mem_map.2 ⟨e, List.mem_flatten.2 ⟨row, hrow, he⟩, heq⟩

/-- Leaving out a key takes its entry from the one list that holds it. -/
theorem without_eq (hm : m.keys.Nodup) {pre post : List (κ × α)}
    (hl : m[l]? = some (pre ++ (k, a) :: post)) : m.without k = m.set l (pre ++ post) := by
  have hk : k ∈ (pre ++ (k, a) :: post).map Prod.fst := by simp
  have hnd : ((pre ++ (k, a) :: post).map Prod.fst).Nodup := by
    rw [keys, List.map_flatten, List.nodup_flatten] at hm
    exact hm.1 _ (List.mem_map_of_mem (List.mem_of_getElem? hl))
  rw [List.map_append, List.map_cons, List.nodup_middle, List.nodup_cons, ← List.map_append] at hnd
  have hlt := (List.getElem?_eq_some_iff.1 hl).1
  refine List.ext_getElem? fun j => ?_
  rw [without, List.getElem?_map]
  by_cases hj : l = j
  · subst hj
    rw [List.getElem?_set_self hlt, hl, Option.map_some, List.filter_append,
      List.filter_cons_of_neg (by simp), ← List.filter_append]
    refine congrArg some (List.filter_eq_self.2 fun e he => decide_eq_true fun heq => hnd.1 ?_)
    exact List.mem_map.2 ⟨e, he, heq⟩
  · rw [List.getElem?_set_ne hj]
    cases hr : m[j]? with
    | none => rfl
    | some r =>
      refine congrArg some (List.filter_eq_self.2 fun e he => decide_eq_true fun heq => hj ?_)
      exact index_unique hm hl hr hk (List.mem_map.2 ⟨e, he, heq⟩)

end lookup
end Plain

end DatanodeLedger.Slab
