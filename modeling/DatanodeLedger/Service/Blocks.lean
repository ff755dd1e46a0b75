import DatanodeLedger.Ledger.Cursor
import DatanodeLedger.Ledger.Membership
import DatanodeLedger.Service.Namespace

/-! Block membership of a node. All of these requests need a guard of the node's lock. -/
namespace DatanodeLedger.Request

/-- Put a block in front of the list of a volume. False if the volume is unknown or holds the block.
A block that another volume of the node holds is moved. -/
def addBlock (g : Guard) (n : NodeRef) (storage : String) (b : BlockRef) : Request Bool := do
  check n g
  let l ← ledger
  match l.storageOf? n storage with
  | none => pure false
  | some target =>
    match l.holderOn? b (l.node n).uuid with
    | none => attempt fun l => l.attach target b
    | some source =>
      if source = target then pure false
      else
        record (.blockMoved (l.block b).block.shown (l.storage source).id storage)
        let _ ← attempt fun l => l.detach source b
        attempt fun l => l.attach target b

/-- Take a block off whichever volume of the node holds it. -/
def removeBlock (g : Guard) (n : NodeRef) (b : BlockRef) : Request Bool := do
  check n g
  let l ← ledger
  match l.holderOn? b (l.node n).uuid with
  | some s => attempt fun l => l.detach s b
  | none => pure false

/-- Take a block off the volume with the given id. -/
def removeBlockFrom (g : Guard) (n : NodeRef) (storage : String) (b : BlockRef) : Request Bool := do
  check n g
  match (← ledger).storageOf? n storage with
  | some s => attempt fun l => l.detach s b
  | none => pure false

/-- Put a block in the place of another on the volume that holds the other. It is a fault if none
does, or if the volume cannot take the new block; the old one has been taken off by then. -/
def replaceBlock (g : Guard) (n : NodeRef) (old new : BlockRef) : Request BlockRef := do
  check n g
  let l ← ledger
  let shown (b : BlockRef) := (l.block b).block.shown
  match l.holderOn? old (l.node n).uuid with
  | none => throw (.replacedNotOnNode (shown old) (l.node n).uuid)
  | some s =>
    unless ← attempt fun l => l.detach s old do
      throw (.replacedNotOnStorage (shown old) (l.storage s).id)
    unless ← attempt fun l => l.attach s new do
      throw (.replacementOnStorage (shown new) (l.storage s).id)
    pure new

/-- A walk over the blocks of a node, one volume after the other. -/
def walkBlocks (g : Guard) (n : NodeRef) : Request Walk := do
  check n g
  pure (.through (← node n).storages.values)

/-- A walk over the blocks of one volume of a node; an unknown volume has none. -/
def walkStorage (g : Guard) (n : NodeRef) (storage : String) : Request Walk := do
  check n g
  pure (.through ((← ledger).storageOf? n storage).toList)

/-- The blocks of a walk that nothing interrupts. -/
def collect (w : Walk) : Request (List BlockRef) := look fun l => w.collect l

/-- Take all blocks off the node, and count the memberships. -/
def removeAllBlocks (g : Guard) (n : NodeRef) : Request Nat := do
  let blocks ← collect (← walkBlocks g n)
  blocks.foldlM (fun count b => do pure (if ← removeBlock g n b then count + 1 else count)) 0

end DatanodeLedger.Request
