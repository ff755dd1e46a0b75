import DatanodeLedger.Service.Registry
import DatanodeLedger.Uuid

/-! A cluster in memory: nodes with random volumes that send heartbeats in rounds, while random work
is put on them. Time passes only between the rounds. -/
namespace DatanodeLedger

namespace Simulation

structure Plan where
  nodes : Nat := 3
  storages : Nat := 2
  rounds : Nat := 5
  /-- the pause after every round, in milliseconds -/
  interval : UInt64 := 20
  deriving Repr

/-- What is to be seen after the last round. -/
structure Outcome where
  summaries : List String
  exposition : String
  /-- the events, the first in front -/
  journal : List Event

end Simulation

abbrev Simulation := StateT Random Request

namespace Simulation

/-- A node of the cluster, and its volumes with their capacities. -/
structure Member where
  node : NodeRef
  uuid : String
  volumes : List (Announcement × UInt64)

private def draw {α : Type} (d : Draw α) : Simulation α := fun r => pure (d.run r)

/-- A volume that holds at least a gibibyte and less than a tebibyte. -/
private def drawVolume : Simulation (Announcement × UInt64) := do
  let id ← draw Uuid.drawStorage
  pure ({ id }, ← draw (Draw.between 0x40000000 0x10000000000))

private def join (c : CoordinatorRef) (plan : Plan) (i : Nat) : Simulation Member := do
  let uuid ← draw Uuid.draw
  let volumes ← (List.range plan.storages).mapM fun _ => drawVolume
  let registration := Registration.ofAddress uuid ("10.0.0." ++ toString (i + 1)) 9866
  let node ← Request.register c registration (volumes.map Prod.fst)
  pure { node, uuid, volumes }

/-- Place a block on the first volume of one node, and have it copied to that of another. -/
private def placeBlock (c : CoordinatorRef) (m : Member) (ms : List Member) (id : UInt64) :
    Simulation PUnit := do
  let source ← draw (Draw.item m ms)
  let target ← draw (Draw.item m ms)
  let block : Block := { id, length := (← draw (Draw.between 1 128)) <<< 20, stamp := 1 }
  if let some (volume, _) := source.volumes.head? then
    let b ← Request.make fun l => l.addBlock { block }
    let _ ← Request.addReportedBlock c source.uuid volume.id b
  let l ← Request.ledger
  let targets := (l.node target.node).storages.values.take 1
  if source.uuid ≠ target.uuid ∧ targets ≠ [] then
    let _ ← Request.addTransfer source.node block targets

/-- The work that is put on the cluster in one round: four blocks are placed, one is to be deleted,
and the writing of one may have to be recovered. Block ids go on from `id`. -/
private def submitWork (c : CoordinatorRef) (m : Member) (ms : List Member) (id : UInt64) :
    Simulation UInt64 := do
  (List.range 4).forM fun i => placeBlock c m ms (id + UInt64.ofNat i)
  let id := id + 4
  let member ← draw (Draw.item m ms)
  let doomed ← draw (Draw.between 1 id)
  let _ ← Request.addInvalidations member.node [{ id := doomed, length := 0, stamp := 1 }]
  if ← draw (Draw.percent 30) then
    let b ← Request.make fun l =>
      l.addOpenBlock { block := { id, length := 0, stamp := 1 }, locations := [member.uuid] }
    let _ ← Request.addRecoveryOn c member.uuid b
    pure (id + 1)
  else pure id

private def sendHeartbeat (c : CoordinatorRef) (round : Nat) (m : Member) : Simulation PUnit := do
  let reports := m.volumes.map fun (volume, capacity) =>
    StorageReport.synthetic volume capacity (UInt64.ofNat round)
  let _ ← Request.heartbeat c m.uuid { reports }

/-- The given number of rounds. Work is put on a cluster of at least two nodes. -/
private def rounds (c : CoordinatorRef) (plan : Plan) (m : Member) (ms : List Member) :
    Nat → UInt64 → Simulation PUnit
  | 0, _ => pure ()
  | left + 1, id => do
    let id ← if ms.isEmpty then pure id else submitWork c m ms id
    (m :: ms).forM (sendHeartbeat c (plan.rounds - (left + 1)))
    Request.modifyLedger fun l => { l with clock := l.clock + plan.interval.toNat }
    rounds c plan m ms left id

/-- Set up a cluster and run it. Without nodes there are no rounds. -/
def simulate (limits : Limits) (plan : Plan) : Simulation Outcome := do
  let c ← Request.make fun l => l.addCoordinator limits
  match ← (List.range plan.nodes).mapM (join c plan) with
  | [] => pure ()
  | m :: ms => rounds c plan m ms plan.rounds 1
  let l ← Request.ledger
  let k := l.coordinator c
  pure { summaries := k.nodes.values.map fun n => (l.node n).summary
         exposition := k.metrics.exposition l.clock
         journal := (← getThe Service).journal.reverse }

/-- The simulation that a seed gives, from a point in time on. -/
def run (limits : Limits) (plan : Plan) (seed : UInt64) (clock : Int) : Except Fault Outcome :=
  let (outcome, _) := ((simulate limits plan).run' ⟨seed⟩).run.run { ledger := { clock } }
  outcome

end Simulation
end DatanodeLedger
