import DatanodeLedger.Error
import DatanodeLedger.Table

/-! Doubly linked lists that share one arena of slots. An entry belongs to one list at a time, and a
key is linked at most once in the whole arena, so that it can be unlinked without a search. An
operation answers with a fault where a link or an index entry leads to no entry. -/
namespace DatanodeLedger

structure Slab.Entry (κ α : Type) where
  key : κ
  value : α
  list : Nat
  prev : Option Nat
  next : Option Nat
  deriving Repr

/-- The two ends of a list. -/
structure Slab.Ends where
  head : Option Nat := none
  tail : Option Nat := none
  length : Nat := 0
  deriving DecidableEq, Repr

structure Slab (κ α : Type) where
  slots : Array (Option (Slab.Entry κ α)) := #[]
  /-- the vacant slots, the one freed last in front -/
  free : List Nat := []
  index : Table κ Nat := {}
  lists : Array Slab.Ends
  deriving Repr

namespace Slab
variable {κ α : Type} [DecidableEq κ]

def withLists (n : Nat) : Slab κ α := { lists := Array.replicate n {} }

def contains (s : Slab κ α) (k : κ) : Bool := s.index.contains k

def size (s : Slab κ α) : Nat := s.index.size

def isEmpty (s : Slab κ α) : Bool := s.size == 0

/-- The ends of a list; a list that does not exist is a fault. -/
def ends (s : Slab κ α) (l : Nat) : Except Fault Ends :=
  match s.lists[l]? with
  | some ends => .ok ends
  | none => .error (.outOfBounds s.lists.size l)

def length (s : Slab κ α) (l : Nat) : Except Fault Nat := (s.ends l).map Ends.length

def head (s : Slab κ α) (l : Nat) : Except Fault (Option Nat) := (s.ends l).map Ends.head

/-- The entry that a link leads to. -/
def entry (s : Slab κ α) (slot : Nat) : Except Fault (Entry κ α) :=
  match s.slots[slot]? with
  | some (some e) => .ok e
  | some none => .error (.vacantLink slot)
  | none => .error (.outOfBounds s.slots.size slot)

def listOf? (s : Slab κ α) (k : κ) : Except Fault (Option Nat) :=
  match s.index.find? k with
  | some slot => (s.entry slot).map fun e => some e.list
  | none => .ok none

def get? (s : Slab κ α) (k : κ) : Except Fault (Option α) :=
  match s.index.find? k with
  | some slot => (s.entry slot).map fun e => some e.value
  | none => .ok none

def setSlot (s : Slab κ α) (slot : Nat) (e : Option (Entry κ α)) : Slab κ α :=
  { s with slots := s.slots.setIfInBounds slot e }

def modifyEnds (s : Slab κ α) (l : Nat) (f : Ends → Ends) : Slab κ α :=
  { s with lists := s.lists.modify l f }

/-- Put an entry into the slot freed last, or into a new one if none is free. -/
def alloc (s : Slab κ α) (e : Entry κ α) : Nat × Slab κ α :=
  match s.free with
  | slot :: free => (slot, { s.setSlot slot (some e) with free })
  | [] => (s.slots.size, { s with slots := s.slots.push (some e) })

def setPrev (s : Slab κ α) (slot : Nat) (prev : Option Nat) : Except Fault (Slab κ α) :=
  (s.entry slot).map fun e => s.setSlot slot (some { e with prev })

def setNext (s : Slab κ α) (slot : Nat) (next : Option Nat) : Except Fault (Slab κ α) :=
  (s.entry slot).map fun e => s.setSlot slot (some { e with next })

/-- Let what comes before a place in a list, an entry or the head of the list, lead on to `next`. -/
def linkNext (s : Slab κ α) (l : Nat) (before next : Option Nat) : Except Fault (Slab κ α) :=
  match before with
  | some slot => s.setNext slot next
  | none => .ok (s.modifyEnds l fun ends => { ends with head := next })

/-- Let what comes after a place in a list, an entry or the tail of the list, lead back to `prev`. -/
def linkPrev (s : Slab κ α) (l : Nat) (after prev : Option Nat) : Except Fault (Slab κ α) :=
  match after with
  | some slot => s.setPrev slot prev
  | none => .ok (s.modifyEnds l fun ends => { ends with tail := prev })

/-- Link a key in front of a list. False, and nothing changed, if the key is linked already. -/
def pushFront (s : Slab κ α) (l : Nat) (k : κ) (a : α) : Except Fault (Bool × Slab κ α) := do
  if s.contains k then pure (false, s)
  else
    let old := (← s.ends l).head
    let (slot, s) := s.alloc { key := k, value := a, list := l, prev := none, next := old }
    let s ← s.linkPrev l old (some slot)
    let s := s.modifyEnds l fun ends =>
      { ends with head := some slot, length := ends.length + 1 }
    pure (true, { s with index := s.index.insert k slot })

/-- Link a key at the end of a list. False, and nothing changed, if the key is linked already. -/
def pushBack (s : Slab κ α) (l : Nat) (k : κ) (a : α) : Except Fault (Bool × Slab κ α) := do
  if s.contains k then pure (false, s)
  else
    let old := (← s.ends l).tail
    let (slot, s) := s.alloc { key := k, value := a, list := l, prev := old, next := none }
    let s ← s.linkNext l old (some slot)
    let s := s.modifyEnds l fun ends =>
      { ends with tail := some slot, length := ends.length + 1 }
    pure (true, { s with index := s.index.insert k slot })

/-- Take the entry out of a slot and join its neighbours. -/
def unlink (s : Slab κ α) (slot : Nat) : Except Fault (Entry κ α × Slab κ α) := do
  let e ← match s.slots[slot]? with
    | some (some e) => pure e
    | some none => throw (.vacantIndex slot)
    | none => throw (.outOfBounds s.slots.size slot)
  let s := s.setSlot slot none
  let s ← s.linkNext e.list e.prev e.next
  let s ← s.linkPrev e.list e.next e.prev
  if (← s.ends e.list).length = 0 then throw (.overflow .subtraction)
  let s := s.modifyEnds e.list fun ends => { ends with length := ends.length - 1 }
  pure (e, { s with free := slot :: s.free })

/-- Unlink a key from the list that holds it. -/
def remove (s : Slab κ α) (k : κ) : Except Fault (Option (Nat × α) × Slab κ α) :=
  match s.index.find? k with
  | none => .ok (none, s)
  | some slot =>
    (unlink { s with index := s.index.erase k } slot).map fun (e, s) => (some (e.list, e.value), s)

/-- Unlink a key if that very list holds it. -/
def removeFrom (s : Slab κ α) (l : Nat) (k : κ) : Except Fault (Option α × Slab κ α) := do
  if (← s.listOf? k) = some l then
    let (removed, s) ← s.remove k
    pure (removed.map Prod.snd, s)
  else pure (none, s)

/-- The value in a slot and the slot behind it, as long as an entry of the list occupies the slot.
Cursors step with this while the arena changes under them. -/
def step (s : Slab κ α) (l slot : Nat) : Option (α × Option Nat) :=
  match s.slots[slot]? with
  | some (some e) => if e.list = l then some (e.value, e.next) else none
  | _ => none

/-- The entries from a slot on. There are no more of them than slots. -/
def chain (s : Slab κ α) (l : Nat) : Nat → Option Nat → Except Fault (List (κ × α))
  | 0, _ | _, none => .ok []
  | fuel + 1, some slot => do
    let e ← s.entry slot
    if e.list ≠ l then throw .mismatch
    let rest ← s.chain l fuel e.next
    pure ((e.key, e.value) :: rest)

/-- The keys and values of a list, from head to tail. -/
def entries (s : Slab κ α) (l : Nat) : Except Fault (List (κ × α)) := do
  s.chain l s.slots.size (← s.head l)

/-- Vacate the slots from one on, and count them. -/
def vacate (s : Slab κ α) : Nat → Option Nat → Except Fault (Nat × Slab κ α)
  | 0, _ | _, none => .ok (0, s)
  | fuel + 1, some slot => do
    let e ← s.entry slot
    let s := { s.setSlot slot none with index := s.index.erase e.key, free := slot :: s.free }
    let (count, s) ← s.vacate fuel e.next
    pure (count + 1, s)

/-- Unlink all entries of a list, and count them. -/
def clearList (s : Slab κ α) (l : Nat) : Except Fault (Nat × Slab κ α) := do
  let (count, s) ← s.vacate s.slots.size (← s.head l)
  pure (count, s.modifyEnds l fun _ => {})

/-- Unlink everything and forget the slots. -/
def clear (s : Slab κ α) : Slab κ α := { lists := s.lists.map fun _ => {} }

end Slab
end DatanodeLedger
