import SqlEngine.Proofs.Row.Names
import SqlEngine.Table

/-!
# Well-formed tables

A table is well formed when its name is in small letters, it has columns, their names are distinct
without regard to the case of ASCII letters, and every row has a field for each column, in the order
of the columns. Each operation on tables keeps the shape, whatever values it writes.
-/
namespace SqlEngine.Table

structure WellFormed (table : Table) : Prop where
  name_small : Text.lower table.name = table.name
  columns_nonempty : table.columns ≠ []
  columns_distinct : Row.DistinctNames table.columnNames
  rows_shaped : ∀ row ∈ table.rows, row.names = table.columnNames

theorem column?_mem {table : Table} {name : String} {column : Column}
    (h : table.column? name = some column) : column.name ∈ table.columnNames :=
  List.mem_map_of_mem (List.mem_of_find?_eq_some h)

theorem sameName_of_column? {table : Table} {name : String} {column : Column}
    (h : table.column? name = some column) : Text.sameName column.name name = true := by
  rw [Table.column?] at h
  simpa using List.find?_some h

theorem not_sameName_of_not_hasColumn {table : Table} {name : String}
    (h : table.hasColumn name = false) : ∀ a ∈ table.columnNames, Text.sameName a name = false := by
  intro a ha
  obtain ⟨column, hmem, rfl⟩ := List.mem_map.1 ha
  simp only [hasColumn, Option.isSome_eq_false_iff, Option.isNone_iff_eq_none] at h
  rw [← Bool.not_eq_true]
  exact List.find?_eq_none.1 h column hmem

namespace WellFormed

variable {table : Table}

theorem names_blankRow (h : table.WellFormed) : table.blankRow.names = table.columnNames :=
  Row.names_nulls h.columns_distinct

/-- The shape depends on nothing but the name, the columns and the names in the rows. -/
theorem withRows (h : table.WellFormed) {rows : List Row}
    (shaped : ∀ row ∈ rows, row.names = table.columnNames) :
    WellFormed { table with rows } :=
  ⟨h.name_small, h.columns_nonempty, h.columns_distinct, shaped⟩

theorem numberedColumns_subset (table : Table) :
    ∀ column ∈ table.numberedColumns, column ∈ table.columnNames := by
  intro column hcolumn
  obtain ⟨c, hc, rfl⟩ := List.mem_map.1 hcolumn
  exact List.mem_map_of_mem (List.mem_filter.1 hc).1

theorem names_numberRow {columns : List String} {row : Row} {counters : List (String × Nat)}
    (h : ∀ column ∈ columns, column ∈ row.names) :
    (numberRow columns row counters).1.names = row.names := by
  induction columns generalizing row counters with
  | nil => rfl
  | cons column rest ih =>
    have hrest : ∀ c ∈ rest, c ∈ row.names := fun c hc => h c (List.mem_cons_of_mem column hc)
    rw [numberRow]
    split
    · have hset := Row.names_set_of_contains
        (Row.contains_of_mem_names (h column List.mem_cons_self))
        (.ofNat (counterOf counters column + 1))
      rw [ih (by rw [hset]; exact hrest), hset]
    · exact ih hrest

theorem insertRow (h : table.WellFormed) {row : Row} (shaped : row.names = table.columnNames) :
    (table.insertRow row).WellFormed := by
  refine ⟨h.name_small, h.columns_nonempty, h.columns_distinct, ?_⟩
  intro other hother
  rcases List.mem_append.1 hother with old | new
  · exact h.rows_shaped other old
  · rw [List.mem_singleton.1 new, names_numberRow, shaped]
    · rfl
    · rw [shaped]
      exact numberedColumns_subset table

theorem insertRows (h : table.WellFormed) {rows : List Row}
    (shaped : ∀ row ∈ rows, row.names = table.columnNames) :
    (table.insertRows rows).WellFormed := by
  induction rows generalizing table with
  | nil => exact h
  | cons row rest ih =>
    exact ih (h.insertRow (shaped row List.mem_cons_self)) fun other hother =>
      shaped other (List.mem_cons_of_mem row hother)

theorem addColumn (h : table.WellFormed) {column : Column} {wider : Table}
    (added : table.addColumn column = .ok wider) : wider.WellFormed := by
  rw [Table.addColumn] at added
  split at added
  · cases added
  · next hnew =>
    cases added
    have hfresh := not_sameName_of_not_hasColumn (Bool.eq_false_iff.2 hnew)
    have hcolumns : (table.columns ++ [column]).map (·.name) =
        table.columnNames ++ [column.name] := List.map_append
    refine ⟨h.name_small, List.append_ne_nil_of_left_ne_nil h.columns_nonempty _, ?_, ?_⟩
    · unfold columnNames
      rw [hcolumns]
      refine List.pairwise_append.2 ⟨h.columns_distinct, List.pairwise_singleton _ _, ?_⟩
      intro a ha b hb
      rw [List.mem_singleton.1 hb]
      exact hfresh a ha
    · intro row hrow
      obtain ⟨old, hold, rfl⟩ := List.mem_map.1 hrow
      have hshape := h.rows_shaped old hold
      have habsent : old.contains column.name = false := by
        rw [Row.contains_eq_any, hshape, List.any_eq_false]
        intro a ha
        rw [hfresh a ha]
        exact Bool.false_ne_true
      unfold columnNames
      rw [Row.names_set_of_not_contains habsent, hshape, hcolumns]

end WellFormed
end SqlEngine.Table
