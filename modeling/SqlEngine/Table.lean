import SqlEngine.Column
import SqlEngine.Error
import SqlEngine.Row

/-!
# Tables

A table has an ordered list of columns, its rows in the order of their insertion, and for each
numbered key the last number given out. Numbers are never given out twice: deleting rows does not
give them back. A counter is a natural number here and has 64 bits with a sign in the engine that
runs; the two differ from the insertion of 2 to the power of 63 rows on, which is out of reach.
-/
namespace SqlEngine

structure Table where
  name : String
  columns : List Column
  rows : List Row
  counters : List (String × Nat)
deriving DecidableEq, Inhabited

namespace Table

/-- A table without rows. -/
def create (name : String) (columns : List Column) : Table :=
  { name := Text.lower name, columns, rows := [], counters := [] }

def columnNames (table : Table) : List String := table.columns.map (·.name)

/-- The first column with the given name. -/
def column? (table : Table) (name : String) : Option Column :=
  table.columns.find? fun column => Text.sameName column.name name

def hasColumn (table : Table) (name : String) : Bool := (table.column? name).isSome

/-- A row with a missing value in every column. -/
def blankRow (table : Table) : Row := Row.nulls table.columnNames

/-- The last number given out in a column, zero if none was. -/
def counterOf (counters : List (String × Nat)) (column : String) : Nat :=
  ((counters.find? (·.1 == column)).map (·.2)).getD 0

/-- The counters after the next number of a column was given out. -/
def countUp (column : String) : List (String × Nat) → List (String × Nat)
  | [] => [(column, 1)]
  | entry :: rest =>
    if entry.1 == column then (entry.1, entry.2 + 1) :: rest else entry :: countUp column rest

/-- Counting up in one column moves its counter by one and no other counter. -/
theorem counterOf_countUp (column other : String) (counters : List (String × Nat)) :
    counterOf (countUp column counters) other =
      counterOf counters other + if column = other then 1 else 0 := by
  induction counters with
  | nil => by_cases h : column = other <;> simp [counterOf, countUp, h]
  | cons entry rest ih =>
    by_cases hc : entry.1 = column
    · by_cases ho : column = other
      · simp [counterOf, countUp, hc, ho]
      · simp [counterOf, countUp, hc, ho]
    · by_cases ho : entry.1 = other
      · have hne : column ≠ other := fun h => hc (ho.trans h.symm)
        have hcount : countUp column (entry :: rest) = entry :: countUp column rest := by
          simp [countUp, hc]
        simp [counterOf, hcount, ho, hne]
      · simpa [counterOf, countUp, hc, ho] using ih

def counter (table : Table) (column : String) : Nat := counterOf table.counters column

/-- The columns whose missing values are replaced by numbers. -/
def numberedColumns (table : Table) : List String :=
  (table.columns.filter Column.isAutoIncrement).map (·.name)

/-- A row with the next number of each given column where it has no value, and the counters
afterwards. -/
def numberRow : List String → Row → List (String × Nat) → Row × List (String × Nat)
  | [], row, counters => (row, counters)
  | column :: rest, row, counters =>
    if (row.getD column).isNull then
      let next := counterOf counters column + 1
      numberRow rest (row.set column (.ofNat next)) (countUp column counters)
    else numberRow rest row counters

/-- The table with one more row. -/
def insertRow (table : Table) (row : Row) : Table :=
  let (row, counters) := numberRow table.numberedColumns row table.counters
  { table with rows := table.rows ++ [row], counters }

/-- The table with more rows, numbered one after another. -/
def insertRows (table : Table) (rows : List Row) : Table := rows.foldl insertRow table

theorem name_insertRows (table : Table) (rows : List Row) :
    (table.insertRows rows).name = table.name := by
  induction rows generalizing table with
  | nil => rfl
  | cons row rest ih => exact ih (table.insertRow row)

theorem columns_insertRows (table : Table) (rows : List Row) :
    (table.insertRows rows).columns = table.columns := by
  induction rows generalizing table with
  | nil => rfl
  | cons row rest ih => exact ih (table.insertRow row)

/-- Every row that is inserted is there afterwards, and no other row is added. -/
theorem length_rows_insertRows (table : Table) (rows : List Row) :
    (table.insertRows rows).rows.length = table.rows.length + rows.length := by
  induction rows generalizing table with
  | nil => rfl
  | cons row rest ih =>
    have h := ih (table.insertRow row)
    simp only [insertRow, List.length_append, List.length_cons, List.length_nil] at h ⊢
    simp only [insertRows, List.foldl_cons] at h ⊢
    exact h.trans (by omega)

section Retaining

variable {σ : Type} (keep : σ → Row → Bool × σ)

/-- The rows that a test keeps. It goes through the rows in their order, and may remember what it
has seen. -/
def retained : σ → List Row → List Row
  | _, [] => []
  | s, row :: rest =>
    let (kept, s) := keep s row
    if kept then row :: retained s rest else retained s rest

/-- The number of rows that a test removes, and the table with the rows that it keeps. -/
def retainRows (table : Table) (s : σ) : Nat × Table :=
  let rows := retained keep s table.rows
  (table.rows.length - rows.length, { table with rows })

end Retaining

/-- The table with only the rows that pass a test. -/
def keepRows (table : Table) (keep : Row → Bool) : Table :=
  (table.retainRows (fun () row => (keep row, ())) ()).2

/-- A test that remembers nothing keeps the rows that pass it. -/
theorem rows_keepRows (table : Table) (keep : Row → Bool) :
    (table.keepRows keep).rows = table.rows.filter keep := by
  change retained _ () table.rows = _
  induction table.rows with
  | nil => rfl
  | cons row rest ih =>
    rw [retained, List.filter_cons, ← ih]

/-- A test that keeps a row as the next of some marks says, and all rows behind the last mark. -/
def nextMark : List Bool → Row → Bool × List Bool
  | [], _ => (true, [])
  | mark :: rest, _ => (mark, rest)

/-- The table with one cell written in every row. -/
def setColumn (table : Table) (column : String) (value : Value) : Table :=
  { table with rows := table.rows.map fun row => row.set column value }

/-- The table with one more column, which is missing in all rows. -/
def addColumn (table : Table) (column : Column) : Except SqlError Table :=
  if table.hasColumn column.name then
    .error (.schema (.columnExists column.name table.name))
  else .ok { table.setColumn column.name .null with columns := table.columns ++ [column] }

end Table
end SqlEngine
