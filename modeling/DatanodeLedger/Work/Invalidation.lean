import DatanodeLedger.Block

/-! The blocks that a node has to delete. A block is pending once, with the length and the stamp of
the submission that made it pending. -/
namespace DatanodeLedger.Work

structure InvalidateSet where
  pending : List Block := []
  deriving DecidableEq, Repr

namespace InvalidateSet

def size (s : InvalidateSet) : Nat := s.pending.length

def contains (s : InvalidateSet) (b : Block) : Bool := s.pending.any (Block.same b)

def add (s : InvalidateSet) (b : Block) : InvalidateSet :=
  if s.contains b then s else ⟨s.pending ++ [b]⟩

/-- Add blocks, and count those that were not pending. -/
def addAll (s : InvalidateSet) (bs : List Block) : Nat × InvalidateSet :=
  let after := bs.foldl add s
  (after.size - s.size, after)

/-- Take up to `max` blocks, the first in an order of the pending ones. Which blocks a drain takes
is open; every choice is one such order. -/
def drainBy (order : List Block → List Block) (s : InvalidateSet) (max : Nat) :
    Option (List Block) × InvalidateSet :=
  let n := min max s.size
  if n = 0 then (none, s)
  else
    let taken := (order s.pending).take n
    (some taken, ⟨s.pending.filter fun b => !taken.any (Block.same b)⟩)

/-- Take up to `max` blocks, those first that are pending longest. -/
def drain (s : InvalidateSet) (max : Nat) : Option (List Block) × InvalidateSet :=
  s.drainBy id max

end InvalidateSet
end DatanodeLedger.Work
