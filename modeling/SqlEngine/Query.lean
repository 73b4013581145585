import SqlEngine.Catalog
import SqlEngine.Condition.Eval
import SqlEngine.Join

/-!
# Queries

A SELECT is answered in steps: the tables are joined, the rows filtered, then each row or each group
of rows is made into a result row, repetitions are dropped, the rows are sorted, and a page of them
is taken. All columns of the select list and of GROUP BY are looked for in the tables before any row
is touched. SHOW TABLES and DESCRIBE are answered from the catalog alone.
-/
namespace SqlEngine

/-- A result with named columns; every row has a cell for each of them. -/
structure Listing where
  columns : List String
  rows : List (List Value)

namespace Query

/-- A table of a query together with the name it goes by there. -/
abbrev Source := TableRef × Table

/-- The tables of a query, the one after FROM first. -/
def sources (catalog : Catalog) (s : Select) :
    Except SqlError (Table × List (JoinClause × Table)) := do
  let base ← catalog.get s.source.name
  let joined ← s.joins.mapM fun clause => do return (clause, ← catalog.get clause.table.name)
  return (base, joined)

/-- The columns that the select list and GROUP BY name, in that order. -/
def namedColumns (s : Select) : List ColumnRef :=
  s.items.flatMap (fun item => match item with | .expr e _ _ => e.columnRefs | _ => []) ++
    s.groupBy.getD []

/-- Every named column must be a column of one of the tables; the first that is not is reported. -/
def checkColumns (tables : List Table) (s : Select) : Except SqlError Unit :=
  match (namedColumns s).find? fun ref => !tables.any (·.hasColumn ref.name) with
  | some ref => .error (.unknownColumn ref.name)
  | none => .ok ()

/-- An item of a select list with the columns behind a star of one table. -/
inductive ListItem where
  | star
  | columns (names : List String)
  | expr (name : String) (e : Expr)

/-- An item with the columns of the table it names. -/
def resolveItem (sources : List Source) : SelectItem → Except SqlError ListItem
  | .star => .ok .star
  | .starOf qualifier =>
    match sources.find? fun source => source.1.answersTo qualifier with
    | some source => .ok (.columns source.2.columnNames)
    | none => .error (.tableNotFound qualifier)
  | .expr e alias? text => .ok (.expr ((SelectItem.expr e alias? text).outputName?.getD "") e)

/-- The joined rows of all tables and their columns. -/
def joinedRows (semantics : JoinSemantics) (base : Table) (joined : List (JoinClause × Table)) :
    List Row × List String :=
  joined.foldl
    (fun (rows, columns) (clause, table) =>
      (Join.joinRows semantics rows columns table clause, Join.joinColumns columns table))
    (base.rows, base.columnNames)

/-- The rows for which a condition holds, unless its evaluation fails for one of the rows. -/
def filterRows (clause : Option Condition) : List Row → Except SqlError (List Row)
  | [] => .ok []
  | row :: rest => do
    let holds ← Condition.clauseHolds clause (.row row)
    let kept ← filterRows clause rest
    return if holds then row :: kept else kept

/-- A query makes one result row of a group when it has a GROUP BY clause or an aggregate in its
select list. -/
def isGrouped (s : Select) : Bool :=
  s.groupBy.isSome ||
    s.items.any fun item => match item with | .expr e _ _ => e.containsAggregate | _ => false

/-- The result row with one more item of the select list. A star takes the cells of the source row,
if there is one. -/
def addItem (scope : Scope) (source : Option Row) (row : Row) : ListItem → Except SqlError Row
  | .star => .ok ((source.map row.merge).getD row)
  | .columns names =>
    .ok ((source.map fun origin => row.setAll (names.map fun n => (n, origin.getD n))).getD row)
  | .expr name e => do return row.set name (← e.eval scope)

/-- The result row of a scope. -/
def project (items : List ListItem) (scope : Scope) (source : Option Row) : Except SqlError Row :=
  items.foldlM (addItem scope source) Row.empty

/-- A result row with the values it is sorted by. -/
structure Projected where
  row : Row
  keys : List Value

/-- The values that a result row is sorted by. -/
def sortKeys (orderBy : List OrderItem) (scope : Scope) : Except SqlError (List Value) :=
  orderBy.mapM fun item => item.expr.eval scope

/-- One result row for each row; the sort keys see the result row first. -/
def projectRows (s : Select) (items : List ListItem) (rows : List Row) :
    Except SqlError (List Projected) :=
  rows.mapM fun source => do
    let row ← project items (.row source) (some source)
    return ⟨row, ← sortKeys s.orderBy (.layered row source)⟩

/-- The result row of a group, unless the HAVING clause drops it. The clause and the sort keys see
the result row first, and then the first row of the group. -/
def projectGroup (s : Select) (items : List ListItem) (rows : List Row) :
    Except SqlError (Option Projected) := do
  let row ← project items (.group rows .empty) rows.head?
  let scope := Scope.group rows row
  if ← Condition.clauseHolds s.having scope then
    return some ⟨row, ← sortKeys s.orderBy scope⟩
  else return none

/-- One result row for each group that the HAVING clause keeps. -/
def projectGroups (s : Select) (items : List ListItem) (rows : List Row) :
    Except SqlError (List Projected) := do
  let groups := partition ((s.groupBy.getD []).map (·.name)) rows
  return (← groups.mapM (projectGroup s items)).filterMap id

/-- The order of two lists of sort keys, item by item. -/
def compareKeys : List OrderItem → List Value → List Value → Ordering
  | item :: items, x :: xs, y :: ys =>
    let ordering := x.sortCompare y
    (if item.ascending then ordering else ordering.swap).then (compareKeys items xs ys)
  | _, _, _ => .eq

/-- The result rows in the order asked for; rows that are equal in it keep their order. -/
def sortRows (orderBy : List OrderItem) (rows : List Projected) : List Projected :=
  if orderBy.isEmpty then rows
  else rows.mergeSort fun a b => compareKeys orderBy a.keys b.keys != .gt

/-- The result rows that repeat no earlier one. -/
def distinctRows (rows : List Projected) : List Projected :=
  firstsBy (fun p => p.row.values.map Value.groupKey) rows

/-- The rows from `offset` on, `limit` of them at most. -/
def page {α : Type} (offset limit : Option Nat) (rows : List α) : List α :=
  let rest := rows.drop (offset.getD 0)
  match limit with
  | some n => rest.take n
  | none => rest

/-- Rows under the names of the first one. -/
def listing (rows : List Row) : Listing :=
  let columns := (rows.head?.map Row.names).getD []
  ⟨columns, rows.map fun row => columns.map row.getD⟩

/-- The result rows of a query before they are cut into pages. -/
def resultRows (semantics : JoinSemantics) (catalog : Catalog) (s : Select) :
    Except SqlError (List Projected) := do
  let (base, joined) ← sources catalog s
  checkColumns (base :: joined.map (·.2)) s
  let named := (s.source, base) :: joined.map fun (clause, table) => (clause.table, table)
  let items ← s.items.mapM (resolveItem named)
  let rows ← filterRows s.filter (joinedRows semantics base joined).1
  let output ← if isGrouped s then projectGroups s items rows else projectRows s items rows
  return sortRows s.orderBy (if s.distinct then distinctRows output else output)

/-- The answer to a SELECT. -/
def select (semantics : JoinSemantics) (catalog : Catalog) (s : Select) :
    Except SqlError Listing := do
  let rows ← resultRows semantics catalog s
  return listing ((page s.offset s.limit rows).map (·.row))

/-- Every table with the number of its rows. -/
def showTables (catalog : Catalog) : Listing :=
  ⟨["table_name", "rows"], catalog.tables.map fun t => [.text t.name, .ofNat t.rows.length]⟩

/-- Every column of a table with its type and its constraints. -/
def describe (table : Table) : Listing :=
  let flag (set : Bool) : Value := .text (if set then "YES" else "NO")
  ⟨["column", "type", "pk", "notnull"],
    table.columns.map fun c => [.text c.name, .text c.type, flag c.primaryKey, flag c.notNull]⟩

end Query
end SqlEngine
