import SpanScore.Toml.Scalar

/-!
# Configuration trees

A configuration is a table of keys and nodes, each with the region it comes from.  Tables keep
their keys in increasing order.  How a table came about decides who may add to it: a header may
complete a table that so far is only part of a path, dotted keys may extend what dotted keys
opened, and nobody adds to a table in braces.
-/

namespace SpanScore.Toml

/-- How a table came about. -/
inductive Origin where
  /-- By a header, or as the whole configuration. -/
  | header
  /-- As a part of the path in a header. -/
  | path
  /-- As a part of a dotted key. -/
  | dotted
  /-- In braces. -/
  | braces
deriving DecidableEq

/-- A node of a configuration. -/
inductive Node where
  | string (text : String)
  | scalar (value : Scalar)
  /-- An array, which headers in double brackets can extend if they opened it. -/
  | array (ofTables : Bool) (items : List (Located Node))
  | table (origin : Origin) (entries : List (Located String × Located Node))

/-- A key, with its region. -/
abbrev Key := Located String

/-- A node under its key. -/
abbrev Entry := Key × Located Node

/-- A table under construction. -/
structure Table where
  origin : Origin
  entries : List Entry

namespace Table

def node (table : Table) : Node :=
  .table table.origin table.entries

def find? (name : String) (entries : List Entry) : Option (Located Node) :=
  (entries.find? fun entry ↦ entry.1.value == name).map Prod.snd

/-- Entries with a node under a key, the key keeping its region if it is there. -/
def insert (key : Key) (node : Located Node) : List Entry → List Entry
  | [] => [(key, node)]
  | (other, old) :: rest =>
    if key.value < other.value then (key, node) :: (other, old) :: rest
    else if key.value = other.value then (other, node) :: rest
    else (other, old) :: insert key node rest

/-- Changes the table at the end of a path, opening tables on the way. -/
def alter (dotted : Bool) (change : Table → Option Table) : List Key → Table → Option Table
  | [], table => change table
  | key :: path, table => do
    let inner (origin : Origin) (entries : List Entry) : Option Node :=
      (alter dotted change path ⟨origin, entries⟩).map node
    let found := find? key.value table.entries
    let region := (found.map Located.region).getD key.region
    let node ← match found.map Located.value with
      | none => inner (if dotted then .dotted else .path) []
      | some (.table origin entries) =>
        if origin = .braces || (dotted && origin = .header) then none else inner origin entries
      | some (.array true items) =>
        match items.getLast? with
        | some ⟨region, .table origin entries⟩ =>
          if dotted then none
          else (inner origin entries).map fun node ↦
            .array true (items.dropLast ++ [⟨region, node⟩])
        | _ => none
      | some _ => none
    return ⟨table.origin, insert key ⟨region, node⟩ table.entries⟩

/-- A table with one more node, its key being behind a path of `dotted` keys or not. -/
def add (dotted : Bool) (key : Key) (node : Located Node) (table : Table) : Option Table :=
  if dotted != decide (table.origin = .dotted) then none
  else if (find? key.value table.entries).isSome then none
  else some ⟨table.origin, insert key node table.entries⟩

/-- A table with a node at the end of a dotted key. -/
def addAt (path : List Key) (key : Key) (node : Located Node) (table : Table) : Option Table :=
  alter (!path.isEmpty) (add (!path.isEmpty) key node) path table

/-- A table with a table that a header opens at `region`. -/
def openTable (region : Region) (key : Key) (table : Table) : Option Table :=
  match (find? key.value table.entries).map Located.value with
  | none => some ⟨table.origin, insert key ⟨region, .table .header []⟩ table.entries⟩
  | some (.table .path entries) =>
    some ⟨table.origin, insert key ⟨region, .table .header entries⟩ table.entries⟩
  | some _ => none

/-- A table with one more table in an array, which a header in double brackets opens. -/
def openItem (region : Region) (key : Key) (table : Table) : Option Table :=
  let item : Located Node := ⟨region, .table .header []⟩
  match find? key.value table.entries with
  | none => some ⟨table.origin, insert key ⟨region, .array true [item]⟩ table.entries⟩
  | some ⟨first, .array true items⟩ =>
    some ⟨table.origin, insert key ⟨first, .array true (items ++ [item])⟩ table.entries⟩
  | some _ => none

end Table

end SpanScore.Toml
