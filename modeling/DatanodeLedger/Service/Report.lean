import DatanodeLedger.Ledger.Membership
import DatanodeLedger.Ledger.Snapshot
import DatanodeLedger.Service.Storages

/-! Reports on nodes, for monitoring. -/
namespace DatanodeLedger.Request

def report (n : NodeRef) : Request NodeReport := do
  let node ← node n
  let numBlocks ← look fun l => l.numBlocks n
  pure { uuid := node.uuid, address := node.shown, adminState := node.decommission.state,
         alive := node.alive, stats := node.stats, numStorages := node.storages.size, numBlocks,
         volumeFailures := node.volumeFailures, toReplicate := node.transfers.size,
         toRecover := node.recoveries.size, toInvalidate := node.invalidations.size }

/-- The whole record of a node, with its report and its volumes. -/
def nodeDocument (n : NodeRef) : Request Document := do
  let report ← report n
  let scheduled ← scheduled n
  let storages ← look fun l => l.storageDocuments n
  let node ← node n
  pure (.table [("id", node.registration.document), ("location", .text node.location),
    ("report", report.document), ("bandwidth", .word64 node.bandwidth),
    ("key_update", .bool node.keyUpdate), ("disallowed", .bool node.disallowed),
    ("in_progress", .bool node.decommission.isInProgress),
    ("decommissioned", .bool node.decommission.isDone),
    ("decom", node.decommission.progress.brief), ("scheduled", .word32 scheduled),
    ("storages", .list storages)])

end DatanodeLedger.Request
