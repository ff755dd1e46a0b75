/-! The two ways in which a request can fail. An error is a condition that the caller can recover
from; a fault is a broken assertion, which cuts the request short where it stands. -/
namespace DatanodeLedger

inductive Error where
  | io (detail : String)
  | unregisteredDatanode (uuid : String)
  | disallowedDatanode (uuid : String)
  | unknownStorage (uuid storage : String)
  | noReplicationTargets (block : UInt64)
  | emptyInvalidation (uuid : String)
  | invalidConfig (detail : String)
  | configSource (detail : String)
  | serialization (detail : String)
  | other (detail : String)
  deriving DecidableEq, Repr

namespace Error

def message : Error → String
  | io detail => "I/O error: " ++ detail
  | unregisteredDatanode uuid => "Unregistered datanode: " ++ uuid
  | disallowedDatanode uuid =>
    "Datanode " ++ uuid ++ " is not allowed to communicate with the coordinator"
  | unknownStorage uuid storage => "Unknown storage " ++ storage ++ " on datanode " ++ uuid
  | noReplicationTargets block =>
    "Replication of block " ++ toString block.toNat ++ " requested without targets"
  | emptyInvalidation uuid => "Empty invalidation list submitted for " ++ uuid
  | invalidConfig detail => "Invalid configuration: " ++ detail
  | configSource detail => "Config source error: " ++ detail
  | serialization detail => "Serialization error: " ++ detail
  | other detail => detail

/-- Whether the same request can succeed later: an unregistered node registers and tries again. -/
def isRetryable : Error → Bool
  | unregisteredDatanode _ | io _ => true
  | _ => false

/-- An error that is known only by a chain of descriptions, the cause first, and shows the last. -/
def ofChain (cause : String) (contexts : List String) : Error := other (contexts.getLastD cause)

end Error

/-- The arithmetic operations that can leave their word. -/
inductive Arithmetic where
  | addition
  | multiplication
  | subtraction
  deriving DecidableEq, Repr

inductive Fault where
  | overflow (operation : Arithmetic)
  | outOfBounds (length index : Nat)
  /-- a key of a slab leads to a slot without an entry -/
  | vacantIndex (slot : Nat)
  /-- a link of a slab leads to a slot without an entry -/
  | vacantLink (slot : Nat)
  /-- two values that have to agree do not -/
  | mismatch
  | foreignNamespace (uuid : String)
  | boundElsewhere (uuid : String)
  | replacedNotOnNode (old uuid : String)
  | replacedNotOnStorage (old storage : String)
  | replacementOnStorage (new storage : String)
  deriving DecidableEq, Repr

namespace Fault

private def disagreement : String := "assertion `left == right` failed"

def message : Fault → String
  | overflow .addition => "attempt to add with overflow"
  | overflow .multiplication => "attempt to multiply with overflow"
  | overflow .subtraction => "attempt to subtract with overflow"
  | outOfBounds length index =>
    "index out of bounds: the len is " ++ toString length ++ " but the index is " ++ toString index
  | vacantIndex slot => "linked slab index points at vacant slot " ++ toString slot
  | vacantLink slot => "linked slab link points at vacant slot " ++ toString slot
  | mismatch => disagreement
  | foreignNamespace uuid =>
    disagreement ++ ": datanode " ++ uuid ++ " accessed under a foreign namespace lock"
  | boundElsewhere uuid =>
    disagreement ++ ": datanode " ++ uuid ++ " is already bound to another namespace lock"
  | replacedNotOnNode old uuid =>
    "Old block " ++ old ++ " should belong to datanode " ++ uuid ++ " when replacing"
  | replacedNotOnStorage old storage =>
    "Old block " ++ old ++ " should belong to storage " ++ storage ++ " when replacing"
  | replacementOnStorage new storage =>
    "New block " ++ new ++ " should not belong to storage " ++ storage ++ " when replacing"

end Fault
end DatanodeLedger
