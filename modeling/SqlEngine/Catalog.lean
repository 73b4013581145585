import SqlEngine.Table

/-!
# The catalog

The tables, each under its key, and apart from them the keys in the order in which the tables were
created. The key of a table is its name in small letters. Both lists are changed together; that they
go on to have the same keys is not part of the type.

The catalog is changed in place. A change that fails hands the catalog on as well, with everything
that it has written up to there, and nothing is taken back. That no failure comes behind a write is
for the changes to see to.
-/
namespace SqlEngine

structure Catalog where
  entries : List (String × Table)
  order : List String
deriving DecidableEq, Inhabited

namespace Catalog

def empty : Catalog := ⟨[], []⟩

/-- The keys under which there is a table. -/
def keys (catalog : Catalog) : List String := catalog.entries.map (·.1)

/-- The tables in the order of their creation. -/
def tables (catalog : Catalog) : List Table :=
  catalog.order.filterMap fun key => catalog.entries.lookup key

/-- The names of the tables in the order of their creation. -/
def names (catalog : Catalog) : List String := catalog.tables.map (·.name)

def isEmpty (catalog : Catalog) : Bool := catalog.entries.isEmpty

/-- The table with the given name. -/
def find? (catalog : Catalog) (name : String) : Option Table :=
  catalog.entries.lookup (Text.lower name)

def contains (catalog : Catalog) (name : String) : Bool := (catalog.find? name).isSome

/-- The table with the given name, or the failure that there is none. -/
def get (catalog : Catalog) (name : String) : Except SqlError Table :=
  match catalog.find? name with
  | some table => .ok table
  | none => .error (.tableNotFound (Text.lower name))

/-- The catalog with a table in the place of the one of the same name. -/
def replace (catalog : Catalog) (table : Table) : Catalog :=
  { catalog with
    entries := catalog.entries.map fun (key, old) =>
      (key, if key == table.name then table else old) }

/-- Putting a table in the place of one of the same name keeps the keys. -/
theorem keys_replace (catalog : Catalog) (table : Table) :
    (catalog.replace table).keys = catalog.keys := by
  simp only [keys, replace, List.map_map]
  rfl

/-- The names of the tables with the numbers of their rows. -/
def summary (catalog : Catalog) : List (String × Nat) :=
  catalog.tables.map fun table => (table.name, table.rows.length)

end Catalog

/-- What is done to a catalog in place. It comes to a result or fails, and leaves a catalog either
way. -/
abbrev Change (α : Type) := EStateM SqlError Catalog α

namespace Change

variable {α : Type}

/-- A computation that does not get at the catalog is a step of a change. -/
instance : MonadLift (Except SqlError) (EStateM SqlError Catalog) where
  monadLift
    | .ok a => pure a
    | .error e => throw e

/-- The result of a change and the catalog that it leaves. Of a failure only the error is told. -/
def result (change : Change α) (catalog : Catalog) : Except SqlError (α × Catalog) :=
  match change.run catalog with
  | .ok a after => .ok (a, after)
  | .error e _ => .error e

/-- The table with the given name, as it is. -/
def table (name : String) : Change Table := do (← get).get name

/-- Puts a table in the place of the one of the same name. -/
def write (table : Table) : Change Unit := modify (·.replace table)

/-- Adds a table, the last in the order. -/
def create (table : Table) : Change Unit := do
  if ((← get).entries.lookup table.name).isSome then
    throw (.schema (.tableExists table.name))
  modify fun catalog => { catalog with order := catalog.order ++ [table.name] }
  modify fun catalog => { catalog with entries := (table.name, table) :: catalog.entries }

/-- Removes the table with the given name. Whether there was one is seen from what was removed. -/
def drop (name : String) : Change Table := do
  let key := Text.lower name
  let removed := (← get).entries.lookup key
  modify fun catalog => { catalog with entries := catalog.entries.filter (·.1 != key) }
  match removed with
  | none => throw (.tableNotFound key)
  | some table =>
    modify fun catalog => { catalog with order := catalog.order.filter (· != key) }
    return table

end Change

/-- The catalog with one more table, the last in the order. -/
def Catalog.create (catalog : Catalog) (table : Table) : Except SqlError Catalog := do
  let ((), larger) ← (Change.create table).result catalog
  return larger

/-- The table with the given name and the catalog without it. -/
def Catalog.drop (catalog : Catalog) (name : String) : Except SqlError (Table × Catalog) :=
  (Change.drop name).result catalog

end SqlEngine
