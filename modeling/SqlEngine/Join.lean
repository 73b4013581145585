import SqlEngine.Settings
import SqlEngine.Statement
import SqlEngine.Table
import SqlEngine.Value.Order

/-!
# Joins

A join pairs the rows on the left with the rows of a table. Rows match when the named columns are
loosely equal, which is not transitive, so all pairs are tried. In a joined row the cells of the
right side win over cells of the same name on the left. Rows that match nothing are kept or not by
the kind of join, with missing values for the columns of the other side.
-/
namespace SqlEngine

namespace Join

/-- The pairs of column names of a join, the left one first. A pair is turned round when its first
column names the joined table and its second one does not. -/
def orientedPairs (clause : JoinClause) : List (String × String) :=
  let namesRight (ref : ColumnRef) := ref.qualifier.any clause.table.answersTo
  clause.pairs.map fun (a, b) =>
    if namesRight a && !namesRight b then (b.name, a.name) else (a.name, b.name)

/-- Rows match when every pair of columns is there and loosely equal; no pairs match all rows. -/
def rowsMatch (pairs : List (String × String)) (left right : Row) : Bool :=
  pairs.all fun (l, r) =>
    match left.get? l, right.get? r with
    | some a, some b => a.looselyEqual? b == some true
    | _, _ => false

/-- The kind of join that is carried out in place of the one asked for. -/
def carriedOut (semantics : JoinSemantics) (kind : JoinKind) : JoinKind :=
  match semantics, kind with
  | .leftCompat, .right | .leftCompat, .full | .leftCompat, .cross => .left
  | _, kind => kind

/-- A left row and a right row in one. -/
def combine (left right : Row) : Row := (Row.empty.merge left).merge right

/-- A right row with missing values for the columns on the left. -/
def nullLeft (leftColumns : List String) (right : Row) : Row :=
  (Row.nulls leftColumns).merge right

/-- A left row with missing values for the columns on the right that it does not have. -/
def nullRight (table : Table) (left : Row) : Row := left.fillMissing table.columnNames

/-- What a loop over one side has found for a row of the other side: the joined rows, behind all
those from before, and whether the row has matched any. -/
structure Found where
  rows : Array Row
  matched : Bool

/-- The next row of the loop is joined if it matches. -/
def Found.meet (found : Found) (isMatch : Bool) (joined : Row) : Found :=
  if isMatch then ⟨found.rows.push joined, true⟩ else found

/-- One left row goes through the right rows. If it has matched none, it is kept or not. -/
def nestedStep (pairs : List (String × String)) (keepUnmatched : Bool) (table : Table)
    (result : Array Row) (left : Row) : Array Row :=
  let meet (found : Found) (right : Row) :=
    found.meet (rowsMatch pairs left right) (combine left right)
  let found := table.rows.foldl meet ⟨result, false⟩
  if !found.matched && keepUnmatched then found.rows.push (nullRight table left) else found.rows

/-- An inner join, or a left join if the rows that match nothing are kept. -/
def nestedLoop (pairs : List (String × String)) (keepUnmatched : Bool) (left : List Row)
    (table : Table) : List Row :=
  (left.foldl (nestedStep pairs keepUnmatched table) #[]).toList

/-- One right row goes through the left rows. It is kept if it has matched none. -/
def rightStep (pairs : List (String × String)) (leftColumns : List String) (left : List Row)
    (result : Array Row) (right : Row) : Array Row :=
  let meet (found : Found) (left : Row) :=
    found.meet (rowsMatch pairs left right) (combine left right)
  let found := left.foldl meet ⟨result, false⟩
  if !found.matched then found.rows.push (nullLeft leftColumns right) else found.rows

def rightJoin (pairs : List (String × String)) (leftColumns : List String) (left : List Row)
    (table : Table) : List Row :=
  (table.rows.foldl (rightStep pairs leftColumns left) #[]).toList

/-- A full join on its way through the left rows: the rows so far, and for each right row whether a
left row has matched it. -/
structure FullState where
  rows : Array Row
  rightMatched : Array Bool

/-- One left row meets the right row at a place, which is marked if the two match. -/
def fullMeet (pairs : List (String × String)) (left : Row) (state : Found × Array Bool)
    (right : Row × Nat) : Found × Array Bool :=
  let isMatch := rowsMatch pairs left right.1
  (state.1.meet isMatch (combine left right.1),
    if isMatch then state.2.setIfInBounds right.2 true else state.2)

/-- One left row goes through the right rows and their marks. It is kept if it has matched none. -/
def fullStep (pairs : List (String × String)) (table : Table) (state : FullState) (left : Row) :
    FullState :=
  let start : Found × Array Bool := (⟨state.rows, false⟩, state.rightMatched)
  let (found, marks) := table.rows.zipIdx.foldl (fullMeet pairs left) start
  ⟨if !found.matched then found.rows.push (nullRight table left) else found.rows, marks⟩

/-- A loop over the left rows, and behind what it finds the right rows that are still unmarked. -/
def fullJoin (pairs : List (String × String)) (leftColumns : List String) (left : List Row)
    (table : Table) : List Row :=
  let start : FullState := ⟨#[], Array.replicate table.rows.length false⟩
  let state := left.foldl (fullStep pairs table) start
  let keep (result : Array Row) (right : Row × Bool) :=
    if !right.2 then result.push (nullLeft leftColumns right.1) else result
  ((table.rows.zip state.rightMatched.toList).foldl keep state.rows).toList

/-- The rows on the left, which have the given columns, joined with a table. -/
def joinRows (semantics : JoinSemantics) (left : List Row) (leftColumns : List String)
    (table : Table) (clause : JoinClause) : List Row :=
  let pairs := orientedPairs clause
  match carriedOut semantics clause.kind with
  | .inner | .cross => nestedLoop pairs false left table
  | .left => nestedLoop pairs true left table
  | .right => rightJoin pairs leftColumns left table
  | .full => fullJoin pairs leftColumns left table

/-- The columns of a join: those on the left, then those of the table that are not there yet. -/
def joinColumns (leftColumns : List String) (table : Table) : List String :=
  table.columnNames.foldl
    (fun columns name => if columns.any (Text.sameName · name) then columns else columns ++ [name])
    leftColumns

end Join
end SqlEngine
