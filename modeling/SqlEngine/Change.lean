import SqlEngine.Catalog
import SqlEngine.Condition.Eval
import SqlEngine.Statement

/-!
# Changes

The statements that change the catalog. Each settles everything that can fail before it writes; only
the removal of a table looks afterwards at what it has removed. The values of an UPDATE are computed
from the row as it was before the statement.
-/
namespace SqlEngine

/-- What was done to the rows of a table. -/
inductive ChangeKind where
  | insert | update | delete
deriving DecidableEq, Repr

/-- What a statement on the tables themselves has done. -/
inductive SchemaChange where
  | created (table : String) (columns : Nat)
  | alreadyThere (table : String)
  | indexIgnored
  | dropped (table : String)
  | notThere (table : String)
  | columnAdded (column table : String)
deriving DecidableEq

namespace Change

/-- The first name that has occurred before. -/
def firstRepeated (seen : List String) : List String → Option String
  | [] => none
  | name :: rest => if seen.contains name then some name else firstRepeated (name :: seen) rest

/-- Creates a table, unless it is there and may be. -/
def createTable (s : CreateTable) : Change SchemaChange := do
  let table := Table.create s.table s.columns
  if (← get).contains table.name then
    if s.ifNotExists then return .alreadyThere table.name
    else throw (.schema (.tableExists table.name))
  else match firstRepeated [] table.columnNames with
    | some column => throw (.schema (.duplicateColumn column table.name))
    | none =>
      create table
      return .created table.name table.columns.length

/-- Indexes are not kept. -/
def createIndex (_ : CreateIndex) : Change SchemaChange := return .indexIgnored

/-- Removes a table, unless it is not there and need not be. -/
def dropTable (s : DropTable) : Change SchemaChange := do
  if !(← get).contains s.table && s.ifExists then return .notThere (Text.lower s.table)
  else
    let table ← drop s.table
    return .dropped table.name

/-- Adds a column to a table. -/
def addColumn (s : AddColumn) : Change SchemaChange := do
  let table ← table s.table
  let wider ← table.addColumn s.column
  write wider
  return .columnAdded s.column.name table.name

/-- The names of columns as the table spells them. -/
def resolveColumns (table : Table) (names : List String) : Except SqlError (List String) :=
  names.mapM fun name =>
    match table.column? name with
    | some column => .ok column.name
    | none => .error (.unknownColumn name)

/-- The columns that an INSERT gives values for. -/
def targetColumns (table : Table) (s : Insert) : Except SqlError (List String) :=
  match s.columns with
  | some names => resolveColumns table names
  | none => .ok table.columnNames

/-- Every group must give as many values as there are columns. -/
def checkArity (columns : List String) (groups : List (List Expr)) : Except SqlError Unit :=
  match groups.find? (·.length != columns.length) with
  | some group => .error (.arity columns.length group.length)
  | none => .ok ()

/-- The row that a group of values makes. -/
def rowOfGroup (table : Table) (columns : List String) (group : List Expr) :
    Except SqlError Row := do
  let values ← group.mapM (Expr.evalOperand .empty)
  return table.blankRow.setAll (columns.zip values)

/-- The rows that the groups of an INSERT make, one for each group. -/
def rowsOfGroups (table : Table) (s : Insert) : Except SqlError (List Row) := do
  let columns ← targetColumns table s
  checkArity columns s.groups
  s.groups.mapM (rowOfGroup table columns)

/-- Adds the rows of an INSERT. -/
def insert (s : Insert) : Change Nat := do
  let table ← table s.table
  let rows ← rowsOfGroups table s
  write (table.insertRows rows)
  return rows.length

/-- The assignments of an UPDATE with the columns as the table spells them. -/
def resolveAssignments (table : Table) (assignments : List (String × Expr)) :
    Except SqlError (List (String × Expr)) := do
  let columns ← resolveColumns table (assignments.map (·.1))
  return columns.zip (assignments.map (·.2))

/-- A row after an UPDATE, or nothing if the condition does not hold for it. -/
def updatedRow? (filter : Option Condition) (assignments : List (String × Expr)) (row : Row) :
    Except SqlError (Option Row) := do
  if ← Condition.clauseHolds filter (.row row) then
    let values ← assignments.mapM fun assignment => assignment.2.evalOperand (.row row)
    return some (row.setAll ((assignments.map (·.1)).zip values))
  else return none

/-- What an UPDATE makes of each row of a table. -/
def updatedRows (table : Table) (s : Update) : Except SqlError (List (Option Row)) := do
  let assignments ← resolveAssignments table s.assignments
  table.rows.mapM (updatedRow? s.filter assignments)

/-- Changes the rows for which the condition holds. -/
def update (s : Update) : Change Nat := do
  let table ← table s.table
  let changes ← updatedRows table s
  write { table with rows := (table.rows.zip changes).map fun (row, change) => change.getD row }
  return (changes.filter (·.isSome)).length

/-- Removes the rows for which the condition holds. -/
def delete (s : Delete) : Change Nat := do
  let table ← table s.table
  let marks ← Condition.marks s.filter table.rows
  let (removed, kept) := table.retainRows Table.nextMark (marks.map (!·))
  write kept
  return removed

end Change
end SqlEngine
