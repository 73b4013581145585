import SqlEngine.Column
import SqlEngine.Condition

/-!
# Statements

The statements of the language. Names of tables and columns are in small letters; column
references inside expressions keep their spelling.
-/
namespace SqlEngine

/-- A table in FROM or JOIN, perhaps under another name. -/
structure TableRef where
  name : String
  alias? : Option String
deriving DecidableEq, Inhabited

/-- A qualifier means a table when it is the table's name or its other name. -/
def TableRef.answersTo (table : TableRef) (qualifier : String) : Bool :=
  Text.sameName table.name qualifier || table.alias?.any (Text.sameName · qualifier)

inductive JoinKind where
  | inner | left | right | full | cross
deriving DecidableEq, Repr

/-- A joined table with the pairs of columns that have to be equal. -/
structure JoinClause where
  kind : JoinKind
  table : TableRef
  pairs : List (ColumnRef × ColumnRef)
deriving DecidableEq

/-- An item of a select list: all columns, all columns of one table, or an expression with the
text it was written as. -/
inductive SelectItem where
  | star
  | starOf (qualifier : String)
  | expr (e : Expr) (alias? : Option String) (text : String)

/-- The name of the column that an expression makes: the name it was given, else the name of the
column it is, else its text. -/
def SelectItem.outputName? : SelectItem → Option String
  | .star | .starOf _ => none
  | .expr _ (some name) _ => some name
  | .expr (.column ref) none _ => some (Text.lower ref.name)
  | .expr _ none text => some text

/-- An item of ORDER BY. -/
structure OrderItem where
  expr : Expr
  ascending : Bool

structure Select where
  distinct : Bool
  items : List SelectItem
  source : TableRef
  joins : List JoinClause
  filter : Option Condition
  groupBy : Option (List ColumnRef)
  having : Option Condition
  orderBy : List OrderItem
  limit : Option Nat
  offset : Option Nat

/-- Without a list of columns every group of values gives all columns of the table. -/
structure Insert where
  table : String
  columns : Option (List String)
  groups : List (List Expr)

structure Update where
  table : String
  assignments : List (String × Expr)
  filter : Option Condition

structure Delete where
  table : String
  filter : Option Condition

structure CreateTable where
  table : String
  ifNotExists : Bool
  columns : List Column

structure CreateIndex where
  name : Option String
  table : Option String

structure DropTable where
  table : String
  ifExists : Bool

structure AddColumn where
  table : String
  column : Column

inductive Statement where
  | createTable (s : CreateTable)
  | createIndex (s : CreateIndex)
  | insert (s : Insert)
  | select (s : Select)
  | update (s : Update)
  | delete (s : Delete)
  | dropTable (s : DropTable)
  | showTables
  | describe (table : String)
  | addColumn (s : AddColumn)

/-- The kinds of statements. -/
inductive StatementKind where
  | createTable | createIndex | insert | select | update | delete | dropTable | showTables
  | describe | alterTable
deriving DecidableEq, Repr

def Statement.kind : Statement → StatementKind
  | createTable _ => .createTable
  | createIndex _ => .createIndex
  | insert _ => .insert
  | select _ => .select
  | update _ => .update
  | delete _ => .delete
  | dropTable _ => .dropTable
  | showTables => .showTables
  | describe _ => .describe
  | addColumn _ => .alterTable

/-- The words that a kind of statement is known by. -/
def StatementKind.title : StatementKind → String
  | createTable => "CREATE TABLE"
  | createIndex => "CREATE INDEX"
  | insert => "INSERT"
  | select => "SELECT"
  | update => "UPDATE"
  | delete => "DELETE"
  | dropTable => "DROP TABLE"
  | showTables => "SHOW TABLES"
  | describe => "DESCRIBE"
  | alterTable => "ALTER TABLE"

end SqlEngine
