import DatanodeLedger.Document.Json.Reader
import DatanodeLedger.Word

/-! The limits on what one heartbeat response carries, and the intervals that decide whether a node
counts as stale or dead. All intervals are in milliseconds. -/
namespace DatanodeLedger

structure Limits where
  maxReplicationStreams : UInt64 := 2
  maxRecoveryStreams : UInt64 := 2
  blockInvalidateLimit : UInt64 := 1000
  heartbeatInterval : UInt64 := 3000
  staleInterval : UInt64 := 30000
  recheckInterval : UInt64 := 300000
  deriving DecidableEq, Repr

namespace Limits

def positive (value : UInt64) (name : String) : Except Error PUnit :=
  if value = 0 then .error (.invalidConfig (name ++ " must be positive")) else .ok ⟨⟩

/-- The limits and the heartbeat interval have to be positive; the first that is not is named. -/
def validate (limits : Limits) : Except Error PUnit := do
  positive limits.maxReplicationStreams "max_replication_streams"
  positive limits.maxRecoveryStreams "max_recovery_streams"
  positive limits.blockInvalidateLimit "block_invalidate_limit"
  positive limits.heartbeatInterval "heartbeat_interval_ms"

theorem positive_eq_ok_iff {value : UInt64} {name : String} : positive value name = .ok ⟨⟩ ↔ 0 < value.toNat := by
  have hzero : value = 0 ↔ value.toNat = 0 := UInt64.toNat_inj.symm
  unfold positive
  split
  case isTrue h => exact ⟨fun hok => (nomatch hok), fun hpos => (Nat.ne_of_gt hpos (hzero.1 h)).elim⟩
  case isFalse h => exact ⟨fun _ => Nat.pos_of_ne_zero fun hnat => h (hzero.2 hnat), fun _ => rfl⟩

private theorem seq_eq_ok_iff {a b : Except Error PUnit} : (do a; b) = .ok ⟨⟩ ↔ a = .ok ⟨⟩ ∧ b = .ok ⟨⟩ := by
  cases a with
  | error e => exact ⟨fun h => (nomatch h), fun h => (nomatch h.1)⟩
  | ok => exact ⟨fun h => ⟨rfl, h⟩, fun h => h.2⟩

theorem validate_eq_ok_iff {limits : Limits} : limits.validate = .ok ⟨⟩ ↔
    0 < limits.maxReplicationStreams.toNat ∧ 0 < limits.maxRecoveryStreams.toNat ∧
      0 < limits.blockInvalidateLimit.toNat ∧ 0 < limits.heartbeatInterval.toNat := by
  unfold validate
  rw [seq_eq_ok_iff, seq_eq_ok_iff, seq_eq_ok_iff, positive_eq_ok_iff, positive_eq_ok_iff, positive_eq_ok_iff,
    positive_eq_ok_iff]

/-- How long a node may be silent before it is declared dead: twice the recheck interval and ten
heartbeat intervals. -/
def expiry (limits : Limits) : Except Fault UInt64 := do
  let rechecks ← Word.mul64 2 limits.recheckInterval
  let heartbeats ← Word.mul64 10 limits.heartbeatInterval
  Word.add64 rechecks heartbeats

/-- The names of the fields, each with its value. -/
def entries (limits : Limits) : List (String × UInt64) :=
  [("max_replication_streams", limits.maxReplicationStreams),
   ("max_recovery_streams", limits.maxRecoveryStreams),
   ("block_invalidate_limit", limits.blockInvalidateLimit),
   ("heartbeat_interval_ms", limits.heartbeatInterval),
   ("stale_interval_ms", limits.staleInterval),
   ("heartbeat_recheck_interval_ms", limits.recheckInterval)]

def document (limits : Limits) : Document :=
  .table (limits.entries.map fun (name, value) => (name, .word64 value))

/-- The limits whose fields have the values that `value` gives to their names. -/
def ofEntries {m : Type → Type} [Monad m] (value : String → UInt64 → m UInt64) : m Limits := do
  let standard : Limits := {}
  let maxReplicationStreams ← value "max_replication_streams" standard.maxReplicationStreams
  let maxRecoveryStreams ← value "max_recovery_streams" standard.maxRecoveryStreams
  let blockInvalidateLimit ← value "block_invalidate_limit" standard.blockInvalidateLimit
  let heartbeatInterval ← value "heartbeat_interval_ms" standard.heartbeatInterval
  let staleInterval ← value "stale_interval_ms" standard.staleInterval
  let recheckInterval ← value "heartbeat_recheck_interval_ms" standard.recheckInterval
  pure { maxReplicationStreams, maxRecoveryStreams, blockInvalidateLimit, heartbeatInterval,
         staleInterval, recheckInterval }

/-- The limits of a complete document. -/
def ofDocument (d : Document) : Limits :=
  Id.run (ofEntries fun name standard =>
    match d.get? name with
    | some (.integer n) => UInt64.ofNat n.toNat
    | _ => standard)

private def expected (name : String) : Json.Reader Document :=
  if ["max_replication_streams", "max_recovery_streams", "block_invalidate_limit"].contains name
  then Json.Reader.size else Json.Reader.word64

/-- Fields that are left out have their standard values. -/
def reader : Json.Reader Document :=
  Json.Reader.record "DatanodeManagerConfig"
    (({} : Limits).entries.map fun (name, value) => ⟨name, expected name, some (.word64 value)⟩)

end Limits
end DatanodeLedger
