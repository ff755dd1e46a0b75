/-! A generator of random words. It is seeded, so that a run can be repeated draw by draw. -/
namespace DatanodeLedger

structure Random where
  state : UInt64
  deriving Repr

abbrev Draw := StateM Random

namespace Random

/-- The next word: the state goes on by a fixed odd step, and its bits are mixed. -/
def next (r : Random) : UInt64 × Random :=
  let state := r.state + 0x9e3779b97f4a7c15
  let mixed := (state ^^^ (state >>> 30)) * 0xbf58476d1ce4e5b9
  let mixed := (mixed ^^^ (mixed >>> 27)) * 0x94d049bb133111eb
  (mixed ^^^ (mixed >>> 31), ⟨state⟩)

end Random

namespace Draw

def word : Draw UInt64 := fun r => pure r.next

/-- A number from `low` on and below `high`. -/
def between (low high : UInt64) : Draw UInt64 := do
  pure (low + (← word) % (high - low))

/-- True in so many of a hundred draws. -/
def percent (chance : UInt64) : Draw Bool := do
  pure ((← word) % 100 < chance)

/-- An item of a list that begins with `a`. -/
def item {α : Type} (a : α) (as : List α) : Draw α := do
  let i ← between 0 (UInt64.ofNat (as.length + 1))
  pure ((a :: as)[i.toNat]?.getD a)

end Draw
end DatanodeLedger
