import DatanodeLedger.Service.Basic

/-! The namespace lock. A request that fails while it holds the lock poisons it; later ones still
get it, and each leaves a line in the journal. -/
namespace DatanodeLedger

/-- Proof that a request holds a lock. -/
structure Guard where
  lock : LockRef
  deriving DecidableEq, Repr

namespace Request

/-- Run a part of a request under a lock. -/
def withLock {α : Type} (r : LockRef) (body : Guard → Request α) : Request α := do
  if ((← ledger).lock r).poisoned then record .poisonedLock
  modifyLedger fun l => l.modifyLock r fun lock => { lock with held := true }
  try
    let a ← body ⟨r⟩
    modifyLedger fun l => l.modifyLock r fun lock => { lock with held := false }
    pure a
  catch fault =>
    modifyLedger fun l => l.modifyLock r fun _ => { held := false, poisoned := true }
    throw fault

/-- A guard of a lock that is free, for as long as the caller makes use of it. -/
def tryLock (r : LockRef) : Request (Option Guard) := do
  pure (if ((← ledger).lock r).held then none else some ⟨r⟩)

/-- Tie a node to a lock. A node that is tied to another one is a fault. -/
def bind (n : NodeRef) (r : LockRef) : Request PUnit := do
  match (← node n).lock with
  | none => modifyNode n fun node => { node with lock := some r }
  | some bound => if bound ≠ r then throw (.boundElsewhere (← node n).uuid)

/-- Let a guard of the node's lock pass. The first guard that a node meets ties it to its lock; a
guard of another lock is a fault. -/
def check (n : NodeRef) (g : Guard) : Request PUnit := do
  match (← node n).lock with
  | none => modifyNode n fun node => { node with lock := some g.lock }
  | some bound => if bound ≠ g.lock then throw (.foreignNamespace (← node n).uuid)

end Request
end DatanodeLedger
