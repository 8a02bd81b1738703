/-
  TermLint.Toml.Table

  Tables under construction.  A table is made by a header of its own, by the header
  of a table inside it, or by a dotted key; how it was made decides what may still
  be added to it.  `assign`, `declare` and `append` are the three ways in which a
  statement changes the tables; `Node.toData` forgets how they were made.
-/

import TermLint.Dict
import TermLint.Toml.Data
import TermLint.Toml.Lexeme

namespace TermLint.Toml

/-- How a table was made. -/
inductive Origin where
  /-- By the header of a table inside it. -/
  | implied
  /-- By a dotted key, or by a header inside it and extended by a dotted key since. -/
  | dotted
  /-- By its own header; the outermost table and the tables of an array count as such. -/
  | declared
  deriving DecidableEq, Repr

/-- What stands at a key. -/
inductive Node where
  /-- A value, which is complete. -/
  | value (data : Data)
  | table (origin : Origin) (entries : List (String × Node))
  /-- An array of tables, of which only the last can be added to; the earlier ones are in
  reverse. -/
  | tables (last : List (String × Node)) (earlier : List (List (String × Node)))
  deriving Inhabited

/-- A table under construction. -/
structure Table where
  origin : Origin
  entries : List (String × Node)

namespace Table

/-- A table without entries. -/
def empty (origin : Origin) : Table := ⟨origin, []⟩

/-- What stands at a key. -/
def get? (table : Table) (name : String) : Option Node :=
  findEntry name table.entries

/-- The table with a node at a key. -/
def insert (table : Table) (name : String) (node : Node) : Table :=
  ⟨table.origin, insertEntry name node table.entries⟩

/-- Change the table that a path leads to, through the last table of an array of tables.  Tables that
are missing on the way are made with the given origin; a dotted key does not lead into a table that
its own header declared. -/
def within (origin : Origin) (change : Table → Except Fault Table) :
    List String → Table → Except Fault Table
  | [], table => change table
  | name :: path, table =>
    match table.get? name with
    | none =>
      match within origin change path (empty origin) with
      | .error e => .error e
      | .ok inner => .ok (table.insert name (.table inner.origin inner.entries))
    | some (.table made entries) =>
      if origin = .dotted ∧ made = .declared then .error (.redefined name)
      else
        match within origin change path ⟨made, entries⟩ with
        | .error e => .error e
        | .ok inner => .ok (table.insert name (.table inner.origin inner.entries))
    | some (.tables last earlier) =>
      match within origin change path ⟨.declared, last⟩ with
      | .error e => .error e
      | .ok inner => .ok (table.insert name (.tables inner.entries earlier))
    | some (.value _) => .error (.redefined name)

/-- Put data at a key that has none. -/
def put (name : String) (data : Data) (table : Table) : Except Fault Table :=
  match table.get? name with
  | some _ => .error (.redefined name)
  | none => .ok (table.insert name (.value data))

/-- Put data at a key of a table that a dotted key leads to, which may not be declared and, being
extended by a dotted key, can no longer be. -/
def extend (name : String) (data : Data) (table : Table) : Except Fault Table :=
  if table.origin = .declared then .error (.redefined name)
  else put name data { table with origin := .dotted }

/-- Put data at a path. -/
def assign (path : KeyPath) (data : Data) (table : Table) : Except Fault Table :=
  if path.tables = [] then table.put path.name data
  else within .dotted (extend path.name data) path.tables table

/-- Declare the table at a path, which may so far only be implied. -/
def declare (path : KeyPath) (table : Table) : Except Fault Table :=
  within .implied
    (fun outer =>
      match outer.get? path.name with
      | none => .ok (outer.insert path.name (.table .declared []))
      | some (.table .implied entries) => .ok (outer.insert path.name (.table .declared entries))
      | some _ => .error (.redefined path.name))
    path.tables table

/-- Append a table to the array of tables at a path. -/
def append (path : KeyPath) (table : Table) : Except Fault Table :=
  within .implied
    (fun outer =>
      match outer.get? path.name with
      | none => .ok (outer.insert path.name (.tables [] []))
      | some (.tables last earlier) =>
        .ok (outer.insert path.name (.tables [] (last :: earlier)))
      | some _ => .error (.redefined path.name))
    path.tables table

end Table

/-! ## The data of a table -/

mutual

/-- The data at a key. -/
def Node.toData : Node → Data
  | .value data => data
  | .table _ entries => .table (dataFrom [] entries)
  | .tables last earlier => .array (elementsFrom [.table (dataFrom [] last)] earlier)

/-- The data of entries, after those already done, which are in reverse. -/
def dataFrom (done : List (String × Data)) : List (String × Node) → List (String × Data)
  | [] => done.reverse
  | (name, node) :: rest => dataFrom ((name, node.toData) :: done) rest

/-- The data of the tables of an array, which are in reverse, before those already done. -/
def elementsFrom (done : List Data) : List (List (String × Node)) → List Data
  | [] => done
  | entries :: rest => elementsFrom (.table (dataFrom [] entries) :: done) rest

end

/-- The data of a table. -/
def Table.toData (table : Table) : Data :=
  .table (dataFrom [] table.entries)

end TermLint.Toml
