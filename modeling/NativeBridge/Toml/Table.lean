/-
Tables while they are put together. A table is made by its own header, or implied by a longer header, or implied by a key
with points in it. A header may come once, and after the tables that it implies to be there; a key with points may only add
to tables that such keys have made; no value is ever replaced. A list of tables is reached through its last table.

- `Table.define`: a value under a key.
- `Table.openTable`, `Table.openElement`: a header.
-/
import NativeBridge.Document

namespace NativeBridge.Toml

/-- a key: the tables it goes through, and the name in the last of them -/
structure Key where
  tables : List String
  name : String

/-- what made a table -/
inductive Origin where
  | header
  | longerHeader
  | pointedKey
deriving DecidableEq, Repr

/-- what a table holds under a name -/
inductive Item where
  | value (value : Document)
  | table (origin : Origin) (entries : List (String × Item))
  /-- a list of tables, each made by its own header -/
  | tables (elements : List (List (String × Item)))

/-- the entries of a table -/
abbrev Table := List (String × Item)

mutual

/-- the document of an item -/
def Item.document : Item → Document
  | .value v => v
  | .table _ entries => .table (Table.entries entries)
  | .tables elements => .sequence (Table.elements elements)

/-- the documents of the entries of a table -/
def Table.entries : List (String × Item) → List (String × Document)
  | [] => []
  | (name, item) :: rest => (name, item.document) :: Table.entries rest

/-- the documents of a list of tables -/
def Table.elements : List (List (String × Item)) → List Document
  | [] => []
  | entries :: rest => .table (Table.entries entries) :: Table.elements rest

end

namespace Table

/-- the table with an item under a name -/
def put (name : String) (item : Item) (t : Table) : Table := (t.filter fun entry => entry.1 != name) ++ [(name, item)]

/-- the table with the table at the end of a way changed, which may fail. `byKey` tells that the way is part of a key: the
tables that are missing on it are then made by the key, and tables with a header of their own are out of reach. -/
def alter (byKey : Bool) (change : Origin → Table → Option Table) : List String → Origin → Table → Option Table
  | [], origin, t => change origin t
  | name :: rest, _, t =>
    match t.lookup name with
    | none =>
      let origin := if byKey then .pointedKey else .longerHeader
      (alter byKey change rest origin []).map fun below => t.put name (.table origin below)
    | some (.table origin below) =>
      if byKey ∧ origin = .header then none
      else (alter byKey change rest origin below).map fun below => t.put name (.table origin below)
    | some (.tables elements) =>
      match elements.getLast? with
      | none => none
      | some last =>
        (alter byKey change rest .header last).map fun last => t.put name (.tables (elements.dropLast ++ [last]))
    | some (.value _) => none

/-- the table with a value under a key -/
def define (key : Key) (value : Document) (t : Table) : Option Table :=
  alter true (fun origin t =>
    if key.tables ≠ [] ∧ origin ≠ .pointedKey then none
    else if (t.lookup key.name).isSome then none
    else some (t.put key.name (.value value))) key.tables .header t

/-- the table with the table of a header -/
def openTable (key : Key) (t : Table) : Option Table :=
  alter false (fun _ t =>
    match t.lookup key.name with
    | none => some (t.put key.name (.table .header []))
    | some (.table .longerHeader below) => some (t.put key.name (.table .header below))
    | some _ => none) key.tables .header t

/-- the table with one more table in the list of a header -/
def openElement (key : Key) (t : Table) : Option Table :=
  alter false (fun _ t =>
    match t.lookup key.name with
    | none => some (t.put key.name (.tables [[]]))
    | some (.tables elements) => some (t.put key.name (.tables (elements ++ [[]])))
    | some _ => none) key.tables .header t

/-- the table with a value under a key of the table that a header has opened -/
def defineIn (header : List String) (key : Key) (value : Document) (t : Table) : Option Table :=
  alter false (fun _ t => t.define key value) header .header t

/-- the document of a table -/
def document (t : Table) : Document := .table (entries t)

end Table

end NativeBridge.Toml
