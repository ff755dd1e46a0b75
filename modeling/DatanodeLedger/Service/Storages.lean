import DatanodeLedger.Service.Basic

/-! The volumes of a node: how they are announced, and how the node as a whole changes its address.
-/
namespace DatanodeLedger.Request

/-- A node apart from any coordinator. -/
def openNode (r : Registration) (location : String) : Request NodeRef :=
  make fun l => l.addNode { Node.ofRegistration r with location }

/-- Take up an announced volume. A known one gets the announced state and keeps its medium. -/
def updateStorage (n : NodeRef) (a : Announcement) : Request StorageRef := do
  match (← ledger).storageOf? n a.id with
  | some s =>
    modifyLedger fun l => l.modifyStorage s fun storage => { storage with state := a.state }
    pure s
  | none =>
    let uuid := (← node n).uuid
    record (.storageAdded a.id uuid)
    let s ← make fun l => l.addStorage (.announced uuid a)
    modifyNode n fun node => { node with storages := node.storages.insert a.id s }
    pure s

/-- Change every volume of a node. -/
def modifyStorages (n : NodeRef) (f : Storage → Storage) : Request PUnit :=
  modifyLedger fun l => (l.node n).storages.values.foldl (fun l s => l.modifyStorage s f) l

/-- Take over the address of a registration under the same uuid. All volumes have to be reported in
full again, so the counts of their block reports start over. -/
def updateRegistration (n : NodeRef) (r : Registration) : Request PUnit := do
  if r.uuid ≠ (← node n).uuid then throw .mismatch
  modifyNode n fun node => node.readdress r
  modifyStorages n fun storage => { storage with blockReports := 0 }

/-- One more full block report of a volume. -/
def receiveBlockReport (s : StorageRef) : Request PUnit := do
  let storage ← look fun l => (l.storage s).receiveBlockReport
  modifyLedger fun l => l.modifyStorage s fun _ => storage

/-- The scheduled writes of all volumes of a node. Their sum is not allowed to leave its word. -/
def scheduled (n : NodeRef) : Request UInt32 :=
  look fun l =>
    (l.node n).storages.values.foldlM (fun sum s => Word.add32 sum (l.storage s).scheduled) 0

end DatanodeLedger.Request
