import DatanodeLedger.Document.Basic

/-! Tables under construction. How a table came about decides how it can be extended: a header names
a table once, and keys with dots reach only into tables that no header has named. -/
namespace DatanodeLedger.Toml

inductive Origin where
  /-- on the way to a table named by a header -/
  | implied
  | header
  | dotted
  deriving DecidableEq, Repr

inductive Tree where
  | value (value : Document)
  | table (origin : Origin) (entries : List (String × Tree))
  /-- tables of one name, the last of them open -/
  | tables (closed : List (List (String × Tree))) (last : List (String × Tree))

namespace Tree

abbrev Entries := List (String × Tree)

private def find? (key : String) (entries : Entries) : Option Tree :=
  (entries.find? fun entry => entry.1 == key).map Prod.snd

private def replace (key : String) (tree : Tree) (entries : Entries) : Entries :=
  entries.map fun entry => if entry.1 = key then (key, tree) else entry

/-- Change the table at the end of a path; tables that are missing on the way get `origin`. -/
def descend (origin : Origin) (f : Entries → Option Entries) :
    List String → Entries → Option Entries
  | [], entries => f entries
  | key :: path, entries =>
    match find? key entries with
    | none => (descend origin f path []).map fun sub => entries ++ [(key, table origin sub)]
    | some (table old sub) =>
      if origin = .dotted ∧ old = .header then none
      else (descend origin f path sub).map fun sub => replace key (table old sub) entries
    | some (tables closed last) =>
      if origin = .dotted then none
      else (descend origin f path last).map fun last => replace key (tables closed last) entries
    | some (value _) => none

/-- A new entry below a key with dots. -/
def insert (path : List String) (key : String) (d : Document) : Entries → Option Entries :=
  descend .dotted
    (fun entries =>
      if (find? key entries).isSome then none else some (entries ++ [(key, value d)])) path

/-- Open the table that a header names. -/
def openTable (path : List String) (key : String) : Entries → Option Entries :=
  descend .implied
    (fun entries =>
      match find? key entries with
      | none => some (entries ++ [(key, table .header [])])
      | some (table .implied sub) => some (replace key (table .header sub) entries)
      | some _ => none) path

/-- Open one more of the tables that a header with double brackets names. -/
def openNext (path : List String) (key : String) : Entries → Option Entries :=
  descend .implied
    (fun entries =>
      match find? key entries with
      | none => some (entries ++ [(key, tables [] [])])
      | some (tables closed last) => some (replace key (tables (closed ++ [last]) []) entries)
      | some _ => none) path

mutual

/-- The finished document. -/
def document : Tree → Document
  | value d => d
  | table _ entries => .table (documents entries)
  | tables closed last => .list (closedDocuments closed ++ [.table (documents last)])

def documents : List (String × Tree) → List (String × Document)
  | [] => []
  | (key, tree) :: rest => (key, tree.document) :: documents rest

private def closedDocuments : List (List (String × Tree)) → List Document
  | [] => []
  | entries :: rest => .table (documents entries) :: closedDocuments rest

end

end Tree
end DatanodeLedger.Toml
