import DatanodeLedger.Ledger.Basic

/-! Block membership, which is kept in two places: on the list of a volume and among the
back-references of a block. Attaching and detaching change both together. -/
namespace DatanodeLedger.Ledger

/-- Whether the list of a volume holds this very record. -/
def lists (l : Ledger) (s : StorageRef) (b : BlockRef) : Except Fault Bool := do
  pure ((← (l.storage s).blocks.get? (l.block b).block.id) = some b)

/-- Whether a block refers back to a volume. -/
def refersTo (l : Ledger) (b : BlockRef) (s : StorageRef) : Bool := (l.block b).holders.contains s

/-- Put a block in front of the list of a volume. False if the block, or another record with its id,
is there already. Back-references to volumes that are gone are dropped on this occasion. -/
def attach (l : Ledger) (s : StorageRef) (b : BlockRef) : Except Fault (Bool × Ledger) := do
  let id := (l.block b).block.id
  if (l.storage s).blocks.contains id || l.refersTo b s then pure (false, l)
  else
    let (_, blocks) ← (l.storage s).blocks.pushFront Storage.blockList id b
    let l := l.modifyStorage s fun storage => { storage with blocks }
    let holders := l.holders b ++ [s]
    pure (true, l.modifyBlock b fun record => { record with holders })

/-- Take a block off the list of a volume. False unless the list holds this very record. -/
def detach (l : Ledger) (s : StorageRef) (b : BlockRef) : Except Fault (Bool × Ledger) := do
  if ← l.lists s b then
    let (_, blocks) ← (l.storage s).blocks.remove (l.block b).block.id
    let l := l.modifyStorage s fun storage => { storage with blocks }
    pure (true, l.modifyBlock b fun record =>
      { record with holders := swapRemove s record.holders })
  else pure (false, l)

/-- The number of blocks on all volumes of a node. -/
def numBlocks (l : Ledger) (n : NodeRef) : Except Fault Nat :=
  (l.node n).storages.values.foldlM (fun count s => do pure (count + (← (l.storage s).numBlocks))) 0

end DatanodeLedger.Ledger
