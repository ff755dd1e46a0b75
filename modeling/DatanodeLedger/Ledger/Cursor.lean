import DatanodeLedger.Ledger.Basic

/-! Walks over block lists that may change between two steps. A cursor remembers the slot that comes
next, so it may leave blocks out, repeat some or stop early, but it never leaves its volume. -/
namespace DatanodeLedger

/-- The next block, and where the cursor stands then. After the last block it is done for good. -/
def Cursor.next (l : Ledger) (c : Cursor) : Except Fault (Option BlockRef × Cursor) := do
  let blocks := (l.storage c.storage).blocks
  let slot ← match c.position with
    | .start => blocks.head Storage.blockList
    | .slot slot => pure (some slot)
    | .done => pure none
  match slot.bind (blocks.step Storage.blockList) with
  | some (block, some next) => pure (some block, { c with position := .slot next })
  | some (block, none) => pure (some block, { c with position := .done })
  | none => pure (none, { c with position := .done })

/-- A walk over several volumes, one after the other. -/
structure Walk where
  cursors : List Cursor
  deriving Repr

namespace Walk

def through (storages : List StorageRef) : Walk := ⟨storages.map fun s => { storage := s }⟩

/-- The next block of the first volume that has one. -/
def next (l : Ledger) : List Cursor → Except Fault (Option BlockRef × Walk)
  | [] => .ok (none, ⟨[]⟩)
  | cursor :: rest => do
    match ← cursor.next l with
    | (some block, cursor) => pure (some block, ⟨cursor :: rest⟩)
    | (none, _) => next l rest

/-- The blocks that are left, as long as nothing changes; at most `fuel` of them. -/
def drain (l : Ledger) : Nat → Walk → Except Fault (List BlockRef)
  | 0, _ => .ok []
  | fuel + 1, w => do
    match ← next l w.cursors with
    | (some block, w) => (drain l fuel w).map (block :: ·)
    | (none, _) => pure []

/-- All blocks of a walk that nothing interrupts. A volume has no more blocks than slots. -/
def collect (l : Ledger) (w : Walk) : Except Fault (List BlockRef) :=
  let slots := w.cursors.foldl (fun slots cursor =>
    slots + (l.storage cursor.storage).blocks.slots.size) 0
  drain l (slots + 1) w

end Walk
end DatanodeLedger
