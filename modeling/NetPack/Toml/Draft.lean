import NetPack.Toml.Basic

/-!
# Tables under construction

The tables of a TOML text are filled line by line, and how a table came into being decides what may
still be added to it. A table with a header of its own cannot be reached by dotted keys or get a
second header; a table that was only named on the way to another one can get its header later; a
table made by dotted keys is extended by dotted keys alone. A `Draft` remembers this; once the text
has ended, `Draft.finish` forgets it.
-/

namespace NetPack

namespace Toml

/-- How a table came into being. -/
inductive Origin where
  /-- By its header. -/
  | header
  /-- On the way to another table. -/
  | path
  /-- By dotted keys. -/
  | keys
deriving DecidableEq

/-- A member of a table under construction. -/
inductive Draft where
  | value (v : Toml)
  | table (origin : Origin) (members : List (String × Draft))
  /-- Tables with one header each. -/
  | tables (elements : List (List (String × Draft)))

namespace Draft

/-- The members of a table under construction. -/
abbrev Members := List (String × Draft)

/-- Changes the member of a name, or adds it. -/
def alter? (change : Option Draft → Option Draft) (key : String) : Members → Option Members
  | [] => (change none).map fun d => [(key, d)]
  | (k, d) :: rest =>
    if k = key then (change (some d)).map fun d => (k, d) :: rest
    else (alter? change key rest).map ((k, d) :: ·)

/-- Changes the last element. -/
def alterLast? {α : Type} (change : α → Option α) : List α → Option (List α)
  | [] => none
  | [a] => (change a).map fun a => [a]
  | a :: rest => (alterLast? change rest).map (a :: ·)

/-- Changes the table at the end of a path. Tables on the way are made where they are missing, and
of several tables under one header the last one is taken. Dotted keys do not lead through a table
with a header of its own. -/
def within (dotted : Bool) (change : Origin → Members → Option Members) :
    (path : List String) → Origin → Members → Option Members
  | [], origin, members => change origin members
  | key :: path, _, members =>
    alter? (fun
      | none =>
        let origin := if dotted then .keys else .path
        (within dotted change path origin []).map (table origin)
      | some (value _) => none
      | some (table origin ms) =>
        if dotted && origin = .header then none
        else (within dotted change path origin ms).map (table origin)
      | some (tables elements) =>
        (alterLast? (within dotted change path .header) elements).map tables) key members

/-- Adds a pair of a dotted key and a value. The table that the pair belongs to was made by dotted
keys, or the key has one part. -/
def insertPair (path : List String) (key : String) (v : Toml) : Members → Option Members :=
  within true (fun origin members =>
    if !path.isEmpty && origin ≠ .keys then none
    else alter? (fun d => if d.isNone then some (value v) else none) key members) path .header

/-- Starts the table of a header. -/
def openTable (path : List String) (key : String) : Members → Option Members :=
  within false (fun _ => alter? (fun
    | none => some (table .header [])
    | some (table .path members) => some (table .header members)
    | some _ => none) key) path .header

/-- Adds a table under the header of an array of tables. -/
def addTable (path : List String) (key : String) : Members → Option Members :=
  within false (fun _ => alter? (fun
    | none => some (tables [[]])
    | some (tables elements) => some (tables (elements ++ [[]]))
    | some _ => none) key) path .header

mutual

/-- The value of a finished text. -/
def finish : Draft → Toml
  | value v => v
  | table _ members => .table (finishMembers members)
  | tables elements => .array (finishTables elements)

/-- The members of a finished table. -/
def finishMembers : Members → List (String × Toml)
  | [] => []
  | (key, d) :: rest => (key, finish d) :: finishMembers rest

/-- The tables of a finished array of tables. -/
def finishTables : List Members → List Toml
  | [] => []
  | members :: rest => .table (finishMembers members) :: finishTables rest

end

end Draft

end Toml

end NetPack
