import DatanodeLedger.Document.Basic
import DatanodeLedger.Text.Digits

/-! Paths into documents, such as `server.ports[0]`, and setting the value at the end of one. -/
namespace DatanodeLedger.Settings

inductive Step where
  | key (name : String)
  /-- a place in a list; negative ones count from its end -/
  | index (place : Int)
  deriving DecidableEq, Repr

abbrev Path := List Step

namespace Path

private def isNameChar (c : Char) : Bool := c.isAlphanum || c == '_' || c == '-'

private def index? (cs : List Char) : Option (Int × List Char) :=
  let cs := cs.dropWhile (· == ' ')
  let (negative, cs) := match cs with
    | '-' :: rest => (true, rest)
    | _ => (false, cs)
  match Text.natural? (cs.takeWhile Text.isDigit) with
  | none => none
  | some n =>
    match (cs.dropWhile Text.isDigit).dropWhile (· == ' ') with
    | ']' :: rest => some (if negative then -(n : Int) else n, rest)
    | _ => none

private def steps? : Nat → List Char → Option Path
  | 0, _ => none
  | fuel + 1, cs =>
    match cs with
    | [] => some []
    | '.' :: rest =>
      let name := rest.takeWhile isNameChar
      if name.isEmpty then none
      else (steps? fuel (rest.dropWhile isNameChar)).map (.key (String.ofList name) :: ·)
    | '[' :: rest => do
      let (place, rest) ← index? rest
      let path ← steps? fuel rest
      pure (.index place :: path)
    | _ => none

/-- The path that a key spells. A key that spells none is a path of one step. -/
def ofKey (key : String) : Path :=
  let cs := '.' :: key.toList
  (steps? (cs.length + 1) cs).getD [.key key]

end Path

private def atIndex (place : Int) (items : List Document) : List Document × Nat :=
  if 0 ≤ place then
    (items ++ List.replicate (place.toNat + 1 - items.length) .null, place.toNat)
  else if place.natAbs ≤ items.length then (items, items.length - place.natAbs)
  else (List.replicate (place.natAbs - items.length) .null ++ items, 0)

/-- Change what stands at the end of a path. Whatever on the way is not the table or the list that
the path goes through is replaced by an empty one. -/
def change (f : Document → Document) : Path → Document → Document
  | [], d => f d
  | .key name :: path, d =>
    let entries := match d with
      | .table entries => entries
      | _ => []
    let old := (Document.lookup name entries).getD .null
    .table (Document.put name (change f path old) entries)
  | .index place :: path, d =>
    let items := match d with
      | .list items => items
      | _ => []
    let (items, place) := atIndex place items
    .list (items.modify place (change f path))

mutual

/-- A document with another laid over it: tables are joined key by key, and everything else is
replaced. -/
def overlay (d : Document) : Document → Document
  | .table entries =>
    let base := match d with
      | .table base => base
      | _ => []
    .table (overlayEntries base entries)
  | value => value

private def overlayEntries (base : List (String × Document)) :
    List (String × Document) → List (String × Document)
  | [] => base
  | (key, value) :: rest =>
    let old := (Document.lookup key base).getD .null
    overlayEntries (Document.put key (overlay old value) base) rest

end

/-- Lay a value over what stands at the path that a key spells. -/
def assign (root : Document) (key : String) (value : Document) : Document :=
  change (overlay · value) (Path.ofKey key) root

end DatanodeLedger.Settings
