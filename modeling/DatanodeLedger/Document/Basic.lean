import DatanodeLedger.Number.Double

/-! Documents: trees of values as records are written in and settings are read from. -/
namespace DatanodeLedger

inductive Document where
  | null
  | bool (value : Bool)
  | integer (value : Int)
  | double (value : Number.Double)
  | text (value : String)
  | list (items : List Document)
  | table (entries : List (String × Document))

namespace Document

def natural (n : Nat) : Document := integer n

def word64 (n : UInt64) : Document := natural n.toNat

def word32 (n : UInt32) : Document := natural n.toNat

def word16 (n : UInt16) : Document := natural n.toNat

/-- The value of a key; of equal keys the last counts. -/
def lookup (key : String) (entries : List (String × Document)) : Option Document :=
  (entries.reverse.find? fun entry => entry.1 == key).map Prod.snd

def get? (d : Document) (key : String) : Option Document :=
  match d with
  | table entries => lookup key entries
  | _ => none

/-- The entries with the value of a key replaced, or with the key added at the end. -/
def put (key : String) (value : Document) : List (String × Document) → List (String × Document)
  | [] => [(key, value)]
  | entry :: rest => if entry.1 = key then (key, value) :: rest else entry :: put key value rest

end Document
end DatanodeLedger
