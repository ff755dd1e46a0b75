/-! Names for the records of the ledger. Records are counted as they are made and never renumbered,
so that two records with equal contents are told apart and a name never comes to mean another
record. -/
namespace DatanodeLedger

structure BlockRef where
  index : Nat
  deriving DecidableEq, Repr

/-- Names a block that is still being written. -/
structure OpenRef where
  index : Nat
  deriving DecidableEq, Repr

structure StorageRef where
  index : Nat
  deriving DecidableEq, Repr

structure NodeRef where
  index : Nat
  deriving DecidableEq, Repr

/-- Names a namespace lock. -/
structure LockRef where
  index : Nat
  deriving DecidableEq, Repr

structure CoordinatorRef where
  index : Nat
  deriving DecidableEq, Repr

structure CursorRef where
  index : Nat
  deriving DecidableEq, Repr

end DatanodeLedger
