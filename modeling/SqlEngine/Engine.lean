import SqlEngine.Grammar.Statement
import SqlEngine.Outcome

/-!
# The engine

An engine runs scripts on a catalog of its own, statement by statement. Each statement that is not
empty leaves one record; a statement that fails leaves a record of its failure, and the next
statement is run on the catalog that it leaves.
-/
namespace SqlEngine

/-- What a statement has left behind. -/
inductive Record where
  | done (message : String)
  | failed (error : SqlError) (sql : String)
  | table (listing : Listing)

namespace Record

/-- The record of an outcome. -/
def ofOutcome : Outcome → Record
  | .listing l => .table l
  | .change kind name rows => .done (kind.message name rows)
  | .definition what => .done what.message
  | .noTables => .done noTablesMessage

/-- What is said of a table without rows. -/
def note? (l : Listing) : Option String :=
  if l.rows.isEmpty then some "0 rows returned." else none

end Record

structure Engine where
  settings : Settings
  catalog : Catalog

namespace Engine

/-- An engine without tables. -/
def start (settings : Settings) : Engine := ⟨settings, .empty⟩

/-- Reads and carries out a statement without comments. -/
def carryOut (settings : Settings) (sql : String) : Change Outcome := do
  let statement ← Statement.ofText settings.statementPreview sql
  statement.run settings.joins

/-- The outcome of a statement without comments, and the catalog afterwards. Of a failure only the
error is told. -/
def outcomeOf (engine : Engine) (sql : String) : Except SqlError (Outcome × Catalog) :=
  (carryOut engine.settings sql).result engine.catalog

/-- Runs one statement of a script, and gives its record unless nothing but comments is in it. The
engine goes on with the catalog as the statement leaves it, be it by a failure. -/
def runStatement (engine : Engine) (raw : String) : Option Record × Engine :=
  let sql := Script.stripComments raw
  if sql.isEmpty then (none, engine)
  else match (carryOut engine.settings sql).run engine.catalog with
    | .ok outcome catalog => (some (.ofOutcome outcome), { engine with catalog })
    | .error e catalog => (some (.failed e raw), { engine with catalog })

/-- Runs statements one after another. -/
def runStatements (engine : Engine) : List String → List Record × Engine
  | [] => ([], engine)
  | raw :: rest =>
    let (record, engine) := engine.runStatement raw
    let (records, engine) := engine.runStatements rest
    (record.toList ++ records, engine)

/-- Runs a script: the records of its statements, and the engine afterwards. -/
def execute (engine : Engine) (script : String) : List Record × Engine :=
  engine.runStatements (Script.statements script)

/-- The engine without its tables. -/
def reset (engine : Engine) : Engine := { engine with catalog := .empty }

end Engine

/-- Runs a script on an engine of its own. -/
def executeScript (script : String) : List Record := ((Engine.start .standard).execute script).1

end SqlEngine
