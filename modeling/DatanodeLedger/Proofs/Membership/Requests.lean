import DatanodeLedger.Proofs.Request.Frame

/-! The requests that leave membership alone: locks, heartbeats, pending work, cache lists, liveness and
the registries of nodes and volumes. -/
namespace DatanodeLedger
open Ledger (Alike Quiet)

/-- Membership is not concerned by idle changes, new records and nodes that change hands, nor by the work
that waits for nodes. -/
instance : Request.WorkFrame Quiet where
  node h := Ledger.quiet_modifyNode h.uuid h.storages fun t ht => .inl (h.transfers ▸ ht)
  storage h := Ledger.quiet_modifyStorage h.blocks h.owner
  hands nodes storages blocks cursors _ held :=
    Ledger.quiet_of_held blocks storages nodes cursors fun n hn => (held n hn).imp_right fun hn v hv => by
      rw [hn.2 v] at hv
      cases hv
  block l _ _ := Ledger.quiet_addBlock l rfl
  newNode l _ _ := Ledger.quiet_addNode l rfl rfl
  announce h := Ledger.quiet_announce h
  cursors h := Ledger.quiet_of_cursors h
  work _ _ _ h := Ledger.quiet_modifyNode h.uuid h.storages fun t ht => (h.transfers t ht).imp_right And.right

end DatanodeLedger
