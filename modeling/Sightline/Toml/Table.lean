import Sightline.Toml.Value

/-!
# Building TOML tables

A document names its tables bit by bit, and not every order of naming them is allowed: what a header
has opened cannot be opened again, and keys with points cannot reach into what a header has opened.
While a document is read, every table therefore remembers how it came to be.
-/

namespace Sightline

namespace Toml

/-- How a table came to be. -/
inductive Origin where
  /-- By a header of its own; the document itself counts as such. -/
  | header
  /-- On the way to a table that a header names. -/
  | implied
  /-- On the way to a key with points. -/
  | dotted
deriving DecidableEq, Repr

/-- A part of a document that is not finished yet. -/
inductive Node where
  /-- A value; it is finished, even if it is a table. -/
  | value (value : TomlValue)
  | table (origin : Origin) (entries : List (String × Node))
  /-- An array of tables; only the last one is not finished. -/
  | tables (finished : List TomlTable) (current : List (String × Node))

abbrev Entries := List (String × Node)

def Entries.find? (entries : Entries) (key : String) : Option Node := entries.lookup key

/-- Let a key stand for something else, or for something at all. -/
def Entries.set (entries : Entries) (key : String) (node : Node) : Entries :=
  match entries with
  | [] => [(key, node)]
  | (k, n) :: rest => if k = key then (k, node) :: rest else (k, n) :: Entries.set rest key node

mutual
def Node.toValue : Node → TomlValue
  | .value v => v
  | .table _ entries => .table (toTable entries)
  | .tables finished current =>
    .array (finished.map TomlValue.table ++ [.table (toTable current)])

def toTable : List (String × Node) → TomlTable
  | [] => []
  | (key, node) :: rest => (key, node.toValue) :: toTable rest
end

/-- Change the table at the end of a path. Tables on the way that are missing are made; of an array
of tables the last one is entered. With `byDots` the path belongs to a key with points, which must
not enter what a header has opened. -/
def alter (byDots : Bool) (change : Origin → Entries → Option Entries) :
    (path : List String) → Origin → Entries → Option Entries
  | [], origin, entries => change origin entries
  | key :: path, _, entries =>
    match entries.find? key with
    | none => do
      let origin := if byDots then Origin.dotted else Origin.implied
      let inner ← alter byDots change path origin []
      return entries.set key (.table origin inner)
    | some (.value _) => none
    | some (.tables finished current) => do
      let inner ← alter byDots change path .header current
      return entries.set key (.tables finished inner)
    | some (.table origin inner) =>
      if byDots ∧ origin = .header then none
      else do
        let inner ← alter byDots change path origin inner
        return entries.set key (.table origin inner)

/-- Put a value under a key, which may have points. The last step must stay within a table of the
same kind: without points within the table itself, with points within one made by points. -/
def putValue (keys : List String) (value : TomlValue) (entries : Entries) : Option Entries :=
  match keys.reverse with
  | [] => none
  | key :: before =>
    alter true (fun origin entries =>
      if (origin = .dotted) = (before = []) then none
      else if (entries.find? key).isSome then none
      else some (entries.set key (.value value))) before.reverse .header entries

def openTable (keys : List String) (entries : Entries) : Option Entries :=
  match keys.reverse with
  | [] => none
  | key :: before =>
    alter false (fun _ entries =>
      match entries.find? key with
      | none => some (entries.set key (.table .header []))
      | some (.table .implied inner) => some (entries.set key (.table .header inner))
      | some _ => none) before.reverse .header entries

def openItem (keys : List String) (entries : Entries) : Option Entries :=
  match keys.reverse with
  | [] => none
  | key :: before =>
    alter false (fun _ entries =>
      match entries.find? key with
      | none => some (entries.set key (.tables [] []))
      | some (.tables finished current) =>
        some (entries.set key (.tables (finished ++ [toTable current]) []))
      | some _ => none) before.reverse .header entries

def putUnder (header keys : List String) (value : TomlValue) (entries : Entries) :
    Option Entries :=
  alter false (fun _ entries => putValue keys value entries) header .header entries

end Toml

end Sightline
