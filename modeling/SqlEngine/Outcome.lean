import SqlEngine.Change
import SqlEngine.Query

/-!
# Carrying out a statement

A statement comes to an outcome or fails. Those that change tables do so in the catalog itself,
which is handed on after a failure as the statement has left it.
-/
namespace SqlEngine

/-- What a statement has brought about. -/
inductive Outcome where
  | listing (listing : Listing)
  | change (kind : ChangeKind) (table : String) (rows : Nat)
  | definition (what : SchemaChange)
  | noTables

namespace Outcome

/-- The number of rows that an outcome is about. -/
def rowCount : Outcome → Nat
  | listing l => l.rows.length
  | change _ _ rows => rows
  | definition _ | noTables => 0

end Outcome

/-- What was done to a table, in words. -/
def SchemaChange.message : SchemaChange → String
  | created table columns =>
    "Table '" ++ table ++ "' created with " ++ toString columns ++ " columns."
  | alreadyThere table => "Table '" ++ table ++ "' already exists, skipped."
  | indexIgnored => "Index created (simulated)"
  | dropped table => "Table '" ++ table ++ "' dropped."
  | notThere table => "Table '" ++ table ++ "' not found, skipped."
  | columnAdded column table => "Column '" ++ column ++ "' added to '" ++ table ++ "'."

/-- What is said when there are no tables to show. -/
def noTablesMessage : String := "No tables. Use CREATE TABLE to start."

/-- What was done to rows, in words. -/
def ChangeKind.message (kind : ChangeKind) (table : String) (rows : Nat) : String :=
  match kind with
  | insert => toString rows ++ " row(s) inserted into '" ++ table ++ "'."
  | update => toString rows ++ " row(s) updated."
  | delete => toString rows ++ " row(s) deleted."

namespace Statement

/-- Carries out a statement. -/
def run (semantics : JoinSemantics) : Statement → Change Outcome
  | select s => do return .listing (← Query.select semantics (← get) s)
  | showTables => do
    let catalog ← get
    if catalog.isEmpty then return .noTables
    else return .listing (Query.showTables catalog)
  | describe table => do return .listing (Query.describe (← Change.table table))
  | insert s => do return .change .insert (Text.lower s.table) (← Change.insert s)
  | update s => do return .change .update (Text.lower s.table) (← Change.update s)
  | delete s => do return .change .delete (Text.lower s.table) (← Change.delete s)
  | createTable s => do return .definition (← Change.createTable s)
  | createIndex s => do return .definition (← Change.createIndex s)
  | dropTable s => do return .definition (← Change.dropTable s)
  | addColumn s => do return .definition (← Change.addColumn s)

/-- What a statement brings about, and the catalog afterwards. Of a failure only the error is
told. -/
def execute (semantics : JoinSemantics) (catalog : Catalog) (s : Statement) :
    Except SqlError (Outcome × Catalog) :=
  (s.run semantics).result catalog

end Statement
end SqlEngine
