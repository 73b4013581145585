import SqlEngine.Proofs.Catalog.WellFormed

/-!
# Insertion of a row

What an INSERT of one value does to the catalog: the table gets one row more, in which the column
holds that value, and no other table changes. Numbers are given out only where a row has no value,
so a value that is there is never replaced by one.
-/
namespace SqlEngine

namespace Table

/-- Numbering leaves a cell alone that holds a value. -/
theorem get?_numberRow {name : String} {value : Value} (hvalue : value.isNull = false)
    (columns : List String) {row : Row} (h : row.get? name = some value)
    (counters : List (String × Nat)) :
    (numberRow columns row counters).1.get? name = some value := by
  induction columns generalizing row counters with
  | nil => exact h
  | cons column rest ih =>
    rw [numberRow]
    split
    · next hnull =>
      have hother : Text.sameName column name = false := by
        rw [← Bool.not_eq_true]
        intro hsame
        rw [Row.getD, row.get?_congr hsame, h, Option.getD_some, hvalue] at hnull
        cases hnull
      refine ih ?_ _
      rw [Row.get?_set, hother]
      exact h
    · exact ih h _

/-- A row that holds a value in a column is added at the end and holds it there. -/
theorem rows_insertRow (table : Table) {row : Row} {name : String} {value : Value}
    (hvalue : value.isNull = false) (h : row.get? name = some value) :
    ∃ added, (table.insertRow row).rows = table.rows ++ [added] ∧ added.get? name = some value :=
  ⟨_, rfl, get?_numberRow hvalue _ h _⟩

end Table

namespace Catalog

theorem lookup_replaced (entries : List (String × Table)) (table : Table) (key : String) :
    (entries.map fun (key, old) => (key, if key == table.name then table else old)).lookup key =
      if key = table.name then (entries.lookup key).map fun _ => table
      else entries.lookup key := by
  induction entries with
  | nil => simp
  | cons entry rest ih =>
    obtain ⟨own, old⟩ := entry
    by_cases hkey : key = own
    · subst hkey
      by_cases hname : key = table.name <;> simp [hname]
    · have hne : (key == own) = false := beq_false_of_ne hkey
      rw [List.map_cons, List.lookup_cons, List.lookup_cons, hne]
      exact ih

/-- A table that is put in the place of another one is found under its name. -/
theorem WellFormed.find?_replace {catalog : Catalog} (h : catalog.WellFormed) {name : String}
    {table changed : Table} (hfind : catalog.find? name = some table)
    (hname : changed.name = table.name) :
    (catalog.replace changed).find? name = some changed ∧
      ∀ other, Text.lower other ≠ Text.lower name →
        (catalog.replace changed).find? other = catalog.find? other := by
  have hkey : Text.lower name = changed.name := by
    rw [hname]
    exact h.keys_own _ (find?_mem hfind)
  constructor
  · rw [find?] at hfind
    rw [find?, Catalog.replace, lookup_replaced, if_pos hkey, hfind]
    rfl
  · intro other hother
    rw [find?, Catalog.replace, lookup_replaced, if_neg (hkey ▸ hother)]
    rfl

end Catalog

namespace Change

/-- An INSERT of one group of values with a list of columns succeeds when the columns are there, the
group is as long as the list and its expressions have values. -/
theorem insert_single {catalog : Catalog} {table : Table} {name : String}
    {names columns : List String} {group : List Expr} {row : Row}
    (htable : catalog.get name = .ok table) (hcolumns : resolveColumns table names = .ok columns)
    (hlength : group.length = columns.length) (hrow : rowOfGroup table columns group = .ok row) :
    (insert ⟨name, some names, [group]⟩).result catalog =
      .ok (1, catalog.replace (table.insertRow row)) := by
  have harity : checkArity columns [group] = .ok () := by
    simp [checkArity, hlength]
  have hrows : rowsOfGroups table ⟨name, some names, [group]⟩ = .ok [row] :=
    rowsOfGroups_eq_ok.2 ⟨columns, hcolumns, harity, mapM_eq_ok.2 (.cons hrow .nil)⟩
  rw [insert_result]
  exact bind_eq_ok.2 ⟨table, htable, bind_eq_ok.2 ⟨[row], hrows, rfl⟩⟩

theorem resolveColumns_single {table : Table} {name : String} {column : Column}
    (h : table.column? name = some column) :
    resolveColumns table [name] = .ok [column.name] := by
  refine mapM_eq_ok.2 (.cons ?_ .nil)
  rw [h]

/-- The row of a single literal has it under every spelling of the column. -/
theorem rowOfGroup_literal (table : Table) (column : String) (value : Value) :
    rowOfGroup table [column] [.literal value] = .ok (table.blankRow.set column value) := by
  refine bind_eq_ok.2 ⟨[value], mapM_eq_ok.2 (.cons ?_ .nil), rfl⟩
  rfl

end Change

/-- An INSERT of one literal adds one row to the table, which holds the value in its column, and
leaves the other tables alone. -/
theorem Catalog.WellFormed.insert_literal {catalog : Catalog} (h : catalog.WellFormed)
    {name column : String} {table : Table} (hfind : catalog.find? name = some table)
    (hcolumn : table.hasColumn column = true) {value : Value} (hvalue : value.isNull = false) :
    ∃ after changed row,
      (Change.insert ⟨name, some [column], [[.literal value]]⟩).result catalog =
          .ok (1, after) ∧
        after.find? name = some changed ∧ changed.rows = table.rows ++ [row] ∧
        row.get? column = some value ∧
        ∀ other, Text.lower other ≠ Text.lower name → after.find? other = catalog.find? other := by
  obtain ⟨found, hfound⟩ := Option.isSome_iff_exists.1 hcolumn
  have hset : (table.blankRow.set found.name value).get? column = some value := by
    rw [Row.get?_set, Table.sameName_of_column? hfound, if_pos rfl]
  obtain ⟨row, hrows, hrow⟩ := table.rows_insertRow hvalue hset
  have hname : (table.insertRow (table.blankRow.set found.name value)).name = table.name := rfl
  obtain ⟨hchanged, hothers⟩ := h.find?_replace hfind hname
  refine ⟨_, _, row, ?_, hchanged, hrows, hrow, hothers⟩
  exact Change.insert_single (get_eq_ok.2 hfind) (Change.resolveColumns_single hfound) rfl
    (Change.rowOfGroup_literal _ _ _)

end SqlEngine
