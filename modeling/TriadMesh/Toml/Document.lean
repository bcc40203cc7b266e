import TriadMesh.Toml.Value

/-!
# Tables of a document

A document is a list of statements: a key with a value, a table header, or a header of an array of
tables. `Document.ofStatements?` builds the tables, or refuses what defines a key or a table twice.
A table is *implicit* while it only exists as a step of a path, and *dotted* if that path was the dotted
key of a value.
-/

namespace TriadMesh.Toml

/-- What stands under a key while a document is being built. -/
inductive Entry where
  | value (v : Value)
  | table (implicit dotted : Bool) (entries : List (String × Entry))
  /-- The rows of an array of tables. -/
  | tables (rows : List (List (String × Entry)))

structure Table where
  implicit : Bool
  dotted : Bool
  entries : List (String × Entry)

inductive Statement where
  | assign (path : List String) (key : String) (v : Value)
  | header (path : List String) (key : String)
  | arrayHeader (path : List String) (key : String)

namespace Table

/-- A table with a header of its own. -/
def empty : Table := ⟨false, false, []⟩

def find? (t : Table) (key : String) : Option Entry := (t.entries.find? (·.1 == key)).map (·.2)

def erase (t : Table) (key : String) : Table := { t with entries := t.entries.filter (·.1 != key) }

/-- Puts an entry in the place of the one with the same key, or at the end. -/
def put (t : Table) (key : String) (e : Entry) : Table :=
  if (t.find? key).isSome then
    { t with entries := t.entries.map fun p => if p.1 == key then (key, e) else p }
  else { t with entries := t.entries ++ [(key, e)] }

def entry (t : Table) : Entry := .table t.implicit t.dotted t.entries

/-- Works on the table at the end of a path, making the steps that are missing. In an array of tables the
last one is meant. A dotted key does not enter a table that has a header. -/
def descend {α : Type} (dotted : Bool) (f : Table → Option (Table × α)) : List String → Table → Option (Table × α)
  | [], t => f t
  | key :: path, t =>
    match t.find? key with
    | none => (descend dotted f path ⟨true, dotted, []⟩).map fun r => (t.put key r.1.entry, r.2)
    | some (.value _) => none
    | some (.table implicit dot entries) =>
      if dotted && !implicit then none
      else (descend dotted f path ⟨implicit, dot, entries⟩).map fun r => (t.put key r.1.entry, r.2)
    | some (.tables rows) =>
      match rows.getLast? with
      | none => none
      | some row =>
        (descend dotted f path ⟨false, false, row⟩).map fun r =>
          (t.put key (.tables (rows.dropLast ++ [r.1.entries])), r.2)

/-- Gives a key its value. The steps of the key's path must be dotted tables and nothing else. -/
def assign? (t : Table) (path : List String) (key : String) (v : Value) : Option Table :=
  (descend true (fun u =>
    if u.dotted == path.isEmpty || (u.find? key).isSome then none
    else some (u.put key (.value v), ())) path t).map (·.1)

end Table

mutual

def Entry.toValue : Entry → Value
  | .value v => v
  | .table _ _ entries => .table (valuesOf entries)
  | .tables rows => .array (rowsOf rows)

def valuesOf : List (String × Entry) → List (String × Value)
  | [] => []
  | (k, e) :: rest => (k, e.toValue) :: valuesOf rest

def rowsOf : List (List (String × Entry)) → List Value
  | [] => []
  | r :: rest => .table (valuesOf r) :: rowsOf rest

end

/-- The table that a list of keys with values makes on its own. -/
def inlineTable? (pairs : List (List String × String × Value)) : Option Value :=
  (pairs.foldlM (fun t p => Table.assign? t p.1 p.2.1 p.2.2) Table.empty).map fun t => .table (valuesOf t.entries)

/-- Where the values of the current table belong. -/
inductive Place where
  | root
  | table (path : List String) (key : String)
  | row (path : List String) (key : String)

/-- A document up to some statement: the finished tables, and the one that values go to. -/
structure Document where
  root : Table
  current : Table
  place : Place

namespace Document

def empty : Document := ⟨.empty, .empty, .root⟩

def finish? (d : Document) : Option Table :=
  match d.place with
  | .root => some d.current
  | .table path key =>
    (Table.descend false (fun t =>
      match t.find? key with
      | none | some (.table true _ _) => some (t.put key d.current.entry, ())
      | some _ => none) path d.root).map (·.1)
  | .row path key =>
    (Table.descend false (fun t =>
      match t.find? key with
      | none => some (t.put key (.tables [d.current.entries]), ())
      | some (.tables rows) => some (t.put key (.tables (rows ++ [d.current.entries])), ())
      | some _ => none) path d.root).map (·.1)

/-- Begins a table. One that existed only as a step of a header is taken up; no other may exist. -/
def beginTable? (root : Table) (path : List String) (key : String) : Option Document :=
  (Table.descend false (fun t =>
    match t.find? key with
    | none => some (t, Table.empty)
    | some (.table true false entries) => some (t.erase key, ⟨false, false, entries⟩)
    | some _ => none) path root).map fun r => ⟨r.1, r.2, .table path key⟩

def beginRow? (root : Table) (path : List String) (key : String) : Option Document :=
  (Table.descend false (fun t =>
    match t.find? key with
    | none | some (.tables _) => some (t, ())
    | some _ => none) path root).map fun r => ⟨r.1, .empty, .row path key⟩

def step? (d : Document) : Statement → Option Document
  | .assign path key v => (d.current.assign? path key v).map fun t => { d with current := t }
  | .header path key => d.finish?.bind fun root => beginTable? root path key
  | .arrayHeader path key => d.finish?.bind fun root => beginRow? root path key

def ofStatements? (statements : List Statement) : Option Value := do
  let d ← statements.foldlM step? empty
  return .table (valuesOf (← d.finish?).entries)

end Document

end TriadMesh.Toml
