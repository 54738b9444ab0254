import PoolKeeper.Json.Node

/-!
# TOML tables

A document builds its tables bit by bit, and says of each table how it came to be: by its own
header, on the way to another table's header, or by a dotted key. That decides who may add to it.

* `Toml.Entry`: a value or a table under construction;
* `Toml.insert?`: a value under a dotted key;
* `Toml.within?`: a change to the table that a header names;
* `Toml.openTable?`, `Toml.appendTable?`: tables and arrays of tables, opened by their headers;
* `Toml.toNode`: a finished table as a tree.
-/

namespace PoolKeeper.Toml

/-- How a table came to be. -/
inductive Origin where
  /-- On the way to a header. -/
  | passed
  | header
  | dotted
deriving DecidableEq, Repr

/-- A value, or a table under construction. -/
inductive Entry where
  | value (x : Node)
  | table (origin : Origin) (members : List (String × Entry))
  /-- An array of tables; the last one is under construction. -/
  | tables (items : List (List (String × Entry)))

/-- The members of a table under construction. -/
abbrev Members := List (String × Entry)

/-- Members with one of them replaced. -/
def replace (key : String) (e : Entry) (members : Members) : Members :=
  members.map fun m => if m.1 = key then (key, e) else m

/-- Adds a value under a dotted key. A table with a header of its own is not entered. -/
def insert? (x : Node) : List String → Members → Option Members
  | [], _ => none
  | [key], members =>
    match members.lookup key with
    | none => some (members ++ [(key, .value x)])
    | some _ => none
  | key :: path, members =>
    match members.lookup key with
    | none => (insert? x path []).map fun inner => members ++ [(key, .table .dotted inner)]
    | some (.table origin inner) =>
      if origin = .header then none
      else (insert? x path inner).map fun inner => replace key (.table origin inner) members
    | some _ => none

/-- Changes the table at a path, where an array of tables stands for its last one. -/
def within? (change : Members → Option Members) : List String → Members → Option Members
  | [], members => change members
  | key :: path, members =>
    match members.lookup key with
    | none => (within? change path []).map fun inner => members ++ [(key, .table .passed inner)]
    | some (.table origin inner) =>
      (within? change path inner).map fun inner => replace key (.table origin inner) members
    | some (.tables items) =>
      (within? change path (items.getLast?.getD [])).map fun inner =>
        replace key (.tables (items.dropLast ++ [inner])) members
    | some (.value _) => none

/-- Opens a table by its header, once. -/
def openTable? (key : String) (members : Members) : Option Members :=
  match members.lookup key with
  | none => some (members ++ [(key, .table .header [])])
  | some (.table .passed inner) => some (replace key (.table .header inner) members)
  | some _ => none

/-- Opens the next table of an array of tables by its header. -/
def appendTable? (key : String) (members : Members) : Option Members :=
  match members.lookup key with
  | none => some (members ++ [(key, .tables [[]])])
  | some (.tables items) => some (replace key (.tables (items ++ [[]])) members)
  | some _ => none

mutual

/-- A finished entry as a tree. -/
def Entry.toNode : Entry → Node
  | .value x => x
  | .table _ members => .object (toMembers members)
  | .tables items => .array (toItems items)

/-- Finished members as trees. -/
def toMembers : List (String × Entry) → List (Option String × Node)
  | [] => []
  | (key, e) :: rest => (some key, e.toNode) :: toMembers rest

/-- Finished tables as trees. -/
def toItems : List (List (String × Entry)) → List Node
  | [] => []
  | members :: rest => .object (toMembers members) :: toItems rest

end

/-- A finished table as a tree. -/
def toNode (members : Members) : Node := .object (toMembers members)

end PoolKeeper.Toml
