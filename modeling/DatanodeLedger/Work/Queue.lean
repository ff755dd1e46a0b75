/-! First-in first-out queues that are drained in bounded batches. -/
namespace DatanodeLedger.Work

structure Queue (α : Type) where
  items : List α := []
  deriving Repr

namespace Queue
variable {α : Type}

def size (q : Queue α) : Nat := q.items.length

def isEmpty (q : Queue α) : Bool := q.items.isEmpty

def offer (q : Queue α) (a : α) : Queue α := ⟨q.items ++ [a]⟩

/-- Whether an item is queued that counts as the same. -/
def contains (same : α → α → Bool) (q : Queue α) (a : α) : Bool := q.items.any (same · a)

/-- Queue an item unless one that counts as the same is queued. Tells whether it was. -/
def offerIfAbsent (same : α → α → Bool) (q : Queue α) (a : α) : Bool × Queue α :=
  if q.contains same a then (false, q) else (true, q.offer a)

/-- Take up to `max` items, the oldest first. Nothing is taken from an empty queue, nor if nothing
is asked for. -/
def poll (q : Queue α) (max : Nat) : Option (List α) × Queue α :=
  if max = 0 ∨ q.items.isEmpty then (none, q) else (some (q.items.take max), ⟨q.items.drop max⟩)

theorem items_offer (q : Queue α) (a : α) : (q.offer a).items = q.items ++ [a] := rfl

/-- What is taken and what stays are the queue as it was, in its order. -/
theorem poll_append (q : Queue α) (max : Nat) :
    (q.poll max).1.getD [] ++ (q.poll max).2.items = q.items := by
  unfold poll
  split <;> simp

theorem poll_eq_none_iff (q : Queue α) (max : Nat) :
    (q.poll max).1 = none ↔ max = 0 ∨ q.items = [] := by
  unfold poll
  split <;> simp_all

/-- Where nothing is taken, everything stays. -/
theorem poll_of_none {q : Queue α} {max : Nat} (h : (q.poll max).1 = none) : (q.poll max).2 = q := by
  unfold poll at h ⊢
  split at h
  · rename_i hmax
    rw [if_pos hmax]
  · cases h

theorem ne_nil_of_poll {q : Queue α} {max : Nat} {taken : List α} (h : (q.poll max).1 = some taken) :
    taken ≠ [] := by
  unfold poll at h
  split at h
  · cases h
  · rename_i hmax
    cases h
    rw [not_or, List.isEmpty_iff] at hmax
    exact fun hnil => (List.take_eq_nil_iff.1 hnil).elim hmax.1 hmax.2

theorem length_of_poll {q : Queue α} {max : Nat} {taken : List α}
    (h : (q.poll max).1 = some taken) : taken.length = min max q.size := by
  unfold poll at h
  split at h
  · simp at h
  · cases h
    exact List.length_take

theorem size_poll (q : Queue α) (max : Nat) : (q.poll max).2.size = q.size - max := by
  unfold poll size
  split
  case isTrue h =>
    rw [List.isEmpty_iff] at h
    rcases h with hmax | hempty
    · rw [hmax, Nat.sub_zero]
    · rw [hempty, List.length_nil, Nat.zero_sub]
  case isFalse => exact List.length_drop

end Queue
end DatanodeLedger.Work
