import SqlEngine.Proofs.Catalog.WellFormed

/-!
# Statements keep the catalog well formed

Each change of the catalog leads from well-formed catalogs to well-formed ones. CREATE TABLE asks
more of its statement: it looks for equal column names only, so the names must be in small letters,
where names that are the same are equal, and there must be one. Both hold of every statement that
was read from a text.
-/
namespace SqlEngine

/-- The columns of a CREATE TABLE are not none, and their names are in small letters. -/
def Statement.ColumnsProper : Statement → Prop
  | createTable s => s.columns ≠ [] ∧ ∀ column ∈ s.columns, Text.lower column.name = column.name
  | _ => True

namespace Change

theorem firstRepeated_eq_none {seen names : List String} (h : firstRepeated seen names = none) :
    names.Nodup ∧ ∀ name ∈ names, name ∉ seen := by
  induction names generalizing seen with
  | nil =>
    constructor
    · exact List.nodup_nil
    · intro _ h
      cases h
  | cons name rest ih =>
    rw [firstRepeated] at h
    split at h
    · cases h
    · next hnew =>
      obtain ⟨hnodup, hfresh⟩ := ih h
      constructor
      · refine List.nodup_cons.2 ⟨?_, hnodup⟩
        intro hmem
        exact hfresh name hmem List.mem_cons_self
      · intro other hother
        rcases List.mem_cons.1 hother with rfl | hrest
        · simpa using hnew
        · intro hseen
          exact hfresh other hrest (List.mem_cons_of_mem name hseen)

/-- Small names without repetition are distinct. -/
theorem distinctNames_of_small {names : List String} (nodup : names.Nodup)
    (small : ∀ name ∈ names, Text.lower name = name) : Row.DistinctNames names := by
  refine List.Pairwise.imp_of_mem ?_ nodup
  intro a b ha hb hne
  rw [← Bool.not_eq_true]
  intro hsame
  apply hne
  rw [← small a ha, ← small b hb] at hsame ⊢
  exact Text.eq_of_sameName_lower hsame

theorem create_wellFormed {name : String} {columns : List Column} (nonempty : columns ≠ [])
    (small : ∀ column ∈ columns, Text.lower column.name = column.name)
    (unrepeated : firstRepeated [] (Table.create name columns).columnNames = none) :
    (Table.create name columns).WellFormed := by
  constructor
  · exact Text.lower_lower name
  · exact nonempty
  · apply distinctNames_of_small (firstRepeated_eq_none unrepeated).1
    intro other hother
    obtain ⟨column, hcolumn, rfl⟩ := List.mem_map.1 hother
    exact small column hcolumn
  · intro row hrow
    cases hrow

/-- Resolved columns are columns of the table. -/
theorem resolveColumns_subset {table : Table} {names columns : List String}
    (h : resolveColumns table names = .ok columns) :
    ∀ column ∈ columns, column ∈ table.columnNames := by
  intro column hcolumn
  obtain ⟨name, -, hname⟩ := exists_of_mem_mapM h hcolumn
  split at hname
  · next hfound =>
    cases hname
    exact Table.column?_mem hfound
  · cases hname

theorem targetColumns_subset {table : Table} {s : Insert} {columns : List String}
    (h : targetColumns table s = .ok columns) :
    ∀ column ∈ columns, column ∈ table.columnNames := by
  rw [targetColumns] at h
  split at h
  · exact resolveColumns_subset h
  · cases h
    exact fun _ hcolumn => hcolumn

/-- Writing to columns of the table keeps the names of a row that has them all. -/
theorem names_setAll_zip {row : Row} {columns : List String} {values : List Value}
    (h : ∀ column ∈ columns, column ∈ row.names) :
    (row.setAll (columns.zip values)).names = row.names := by
  apply Row.names_setAll_of_mem
  intro name hname
  obtain ⟨⟨column, value⟩, hmem, rfl⟩ := List.mem_map.1 hname
  exact h column (List.of_mem_zip hmem).1

theorem names_rowOfGroup {table : Table} (h : table.WellFormed) {columns : List String}
    {group : List Expr} {row : Row} (subset : ∀ column ∈ columns, column ∈ table.columnNames)
    (ok : rowOfGroup table columns group = .ok row) : row.names = table.columnNames := by
  obtain ⟨values, -, ok⟩ := bind_eq_ok.1 ok
  cases ok
  rw [names_setAll_zip, h.names_blankRow]
  rw [h.names_blankRow]
  exact subset

/-- The rows of an INSERT have the columns of its table. -/
theorem names_rowsOfGroups {table : Table} (h : table.WellFormed) {s : Insert} {rows : List Row}
    (ok : rowsOfGroups table s = .ok rows) : ∀ row ∈ rows, row.names = table.columnNames := by
  obtain ⟨columns, hcolumns, -, hrows⟩ := rowsOfGroups_eq_ok.1 ok
  intro row hrow
  obtain ⟨group, -, hgroup⟩ := exists_of_mem_mapM hrows hrow
  exact names_rowOfGroup h (targetColumns_subset hcolumns) hgroup

theorem names_updatedRow {filter : Option Condition} {assignments : List (String × Expr)}
    {row changed : Row} (subset : ∀ column ∈ assignments.map (·.1), column ∈ row.names)
    (ok : updatedRow? filter assignments row = .ok (some changed)) : changed.names = row.names := by
  obtain ⟨holds, -, ok⟩ := bind_eq_ok.1 ok
  split at ok
  · obtain ⟨values, -, ok⟩ := bind_eq_ok.1 ok
    cases ok
    exact names_setAll_zip subset
  · cases ok

theorem resolveAssignments_subset {table : Table} {written assignments : List (String × Expr)}
    (h : resolveAssignments table written = .ok assignments) :
    ∀ column ∈ assignments.map (·.1), column ∈ table.columnNames := by
  obtain ⟨columns, hcolumns, h⟩ := bind_eq_ok.1 h
  cases h
  intro column hcolumn
  obtain ⟨⟨name, e⟩, hmem, rfl⟩ := List.mem_map.1 hcolumn
  exact resolveColumns_subset hcolumns name (List.of_mem_zip hmem).1

/-- The rows of a table after an UPDATE have its columns. -/
theorem names_updatedRows {table : Table} (h : table.WellFormed) {s : Update}
    {assignments : List (String × Expr)} {changes : List (Option Row)}
    (hassignments : resolveAssignments table s.assignments = .ok assignments)
    (hchanges : table.rows.mapM (updatedRow? s.filter assignments) = .ok changes) :
    ∀ row ∈ (table.rows.zip changes).map (fun pair => pair.2.getD pair.1),
      row.names = table.columnNames := by
  intro row hrow
  obtain ⟨⟨old, change⟩, hmem, rfl⟩ := List.mem_map.1 hrow
  have hshape := h.rows_shaped old (List.of_mem_zip hmem).1
  cases change with
  | none => exact hshape
  | some changed =>
    have hchange : updatedRow? s.filter assignments old = .ok (some changed) :=
      List.forall₂_iff_zip.1 (mapM_eq_ok.1 hchanges) |>.2 hmem
    refine (names_updatedRow ?_ hchange).trans hshape
    rw [hshape]
    exact resolveAssignments_subset hassignments

end Change

/-- What a statement leads to from a well-formed catalog is well formed. -/
theorem Statement.LeadsTo.wellFormed {catalog after : Catalog} {statement : Statement}
    (leads : statement.LeadsTo catalog after) (h : catalog.WellFormed)
    (proper : statement.ColumnsProper) : after.WellFormed := by
  cases leads with
  | unchanged => exact h
  | insert hget hrows =>
    have htable := h.of_get hget
    exact h.replace (htable.insertRows (Change.names_rowsOfGroups htable hrows))
  | update hget hassignments hchanges =>
    have htable := h.of_get hget
    exact h.replace (htable.withRows (Change.names_updatedRows htable hassignments hchanges))
  | delete hget hmarks =>
    have htable := h.of_get hget
    refine h.replace (htable.withRows fun row hrow => ?_)
    obtain ⟨⟨old, mark⟩, hmem, rfl⟩ := List.mem_map.1 hrow
    exact htable.rows_shaped old (List.of_mem_zip (List.mem_filter.1 hmem).1).1
  | createTable hrepeated hcreate =>
    exact h.create (Change.create_wellFormed proper.1 proper.2 hrepeated) hcreate
  | dropTable hdrop => exact h.drop hdrop
  | addColumn hget hwider => exact h.replace ((h.of_get hget).addColumn hwider)

theorem Statement.execute_wellFormed {semantics : JoinSemantics} {catalog after : Catalog}
    {statement : Statement} {outcome : Outcome} (h : catalog.WellFormed)
    (proper : statement.ColumnsProper)
    (ok : statement.execute semantics catalog = .ok (outcome, after)) : after.WellFormed :=
  (leadsTo_of_execute ok).wellFormed h proper

end SqlEngine
