import SqlEngine.Proofs.Catalog.Failure

/-!
# What changes come to

The result of a change, with the catalog that it leaves, is computed from the results of its steps.
For an atomic change nothing is lost with it: the catalog that a failure leaves is the one before.
Each statement has its result here as a computation on the catalog that it is given, where the
tables of that catalog are looked at and put back once. What a statement can lead to is said once,
by a relation with one case for each way in which the catalog changes; what statements keep is
proved from it.
-/
namespace SqlEngine

namespace Change

variable {α β : Type} {catalog : Catalog}

theorem result_get : (get : Change Catalog).result catalog = .ok (catalog, catalog) := rfl

theorem result_lift (x : Except SqlError α) :
    (liftM x : Change α).result catalog = x >>= fun a => .ok (a, catalog) := by
  cases x <;> rfl

theorem result_bind (x : Change α) (f : α → Change β) :
    Change.result (x >>= f) catalog =
      x.result catalog >>= fun r => (f r.1).result r.2 := by
  rw [result, result, EStateM.run_bind]
  cases x.run catalog <;> rfl

theorem result_table (name : String) :
    (table name).result catalog = catalog.get name >>= fun table => .ok (table, catalog) := by
  rw [table, result_bind, result_get]
  exact result_lift _

/-- The run of an atomic change is told by its result. -/
theorem Atomic.run_eq {change : Change α} (h : change.Atomic) (catalog : Catalog) :
    change.run catalog =
      match change.result catalog with
      | .ok (a, after) => .ok a after
      | .error e => .error e catalog := by
  rw [result]
  cases hrun : change.run catalog with
  | ok a after => rfl
  | error e after => rw [h catalog e after hrun]

end Change

namespace Catalog

variable {catalog : Catalog}

theorem create_eq (table : Table) :
    catalog.create table =
      if (catalog.entries.lookup table.name).isSome then
        .error (.schema (.tableExists table.name))
      else .ok ⟨(table.name, table) :: catalog.entries, catalog.order ++ [table.name]⟩ := by
  rw [create, Change.create, Change.result_bind, Change.result_get]
  change (Change.result (ite _ _ _) catalog >>= _) = _
  split <;> rfl

theorem drop_eq (name : String) :
    catalog.drop name = (do
      let table ← catalog.get name
      return (table, ⟨catalog.entries.filter (·.1 != Text.lower name),
        catalog.order.filter (· != Text.lower name)⟩)) := by
  rw [drop, Change.result]
  cases hget : catalog.get name with
  | ok table =>
    rw [Change.drop_of_get hget]
    rfl
  | error e =>
    rw [Change.drop_of_error hget]
    rfl

theorem create_result (table : Table) :
    (Change.create table).result catalog =
      catalog.create table >>= fun larger => .ok ((), larger) := by
  rw [create]
  cases (Change.create table).result catalog <;> rfl

end Catalog

/-- The rows that are kept by marks of the same number are those that are marked. -/
theorem Table.retained_nextMark {marks : List Bool} {rows : List Row}
    (h : marks.length = rows.length) :
    retained nextMark marks rows = ((rows.zip marks).filter (·.2)).map (·.1) := by
  induction rows generalizing marks with
  | nil => rfl
  | cons row rest ih =>
    cases marks with
    | nil => cases h
    | cons mark marks =>
      have hrest := ih (Nat.succ.inj h)
      cases mark with
      | true => exact congrArg (row :: ·) hrest
      | false => exact hrest

namespace Change

variable {catalog : Catalog}

theorem insert_result (s : Insert) :
    (insert s).result catalog = (do
      let table ← catalog.get s.table
      let rows ← rowsOfGroups table s
      return (rows.length, catalog.replace (table.insertRows rows))) := by
  simp only [insert, result_bind, result_table, result_lift, bind_assoc]
  rfl

theorem update_result (s : Update) :
    (update s).result catalog = (do
      let table ← catalog.get s.table
      let changes ← updatedRows table s
      let rows := (table.rows.zip changes).map fun pair => pair.2.getD pair.1
      return ((changes.filter (·.isSome)).length, catalog.replace { table with rows })) := by
  simp only [update, result_bind, result_table, result_lift, bind_assoc]
  rfl

theorem delete_result (s : Delete) :
    (delete s).result catalog = (do
      let table ← catalog.get s.table
      let marks ← Condition.marks s.filter table.rows
      let kept := ((table.rows.zip marks).filter fun pair => !pair.2).map (·.1)
      return (table.rows.length - kept.length, catalog.replace { table with rows := kept })) := by
  simp only [delete, result_bind, result_table, result_lift, bind_assoc]
  refine congrArg _ (funext fun table => ?_)
  change Condition.marks s.filter table.rows >>= _ = Condition.marks s.filter table.rows >>= _
  refine bind_congr_of_ok fun marks hmarks => ?_
  have hlength : (marks.map (!·)).length = table.rows.length := by
    rw [List.length_map]
    exact (mapM_eq_ok.1 hmarks).length_eq.symm
  have hkept : Table.retained Table.nextMark (marks.map (!·)) table.rows =
      ((table.rows.zip marks).filter fun pair => !pair.2).map (·.1) := by
    rw [Table.retained_nextMark hlength, List.zip_map_right, List.filter_map, List.map_map]
    rfl
  rw [← hkept]
  rfl

theorem rowsOfGroups_eq_ok {table : Table} {s : Insert} {rows : List Row} :
    rowsOfGroups table s = .ok rows ↔
      ∃ columns, targetColumns table s = .ok columns ∧ checkArity columns s.groups = .ok () ∧
        s.groups.mapM (rowOfGroup table columns) = .ok rows := by
  constructor
  · intro h
    obtain ⟨columns, hcolumns, h⟩ := bind_eq_ok.1 h
    obtain ⟨⟨⟩, harity, hrows⟩ := bind_eq_ok.1 h
    exact ⟨columns, hcolumns, harity, hrows⟩
  · rintro ⟨columns, hcolumns, harity, hrows⟩
    exact bind_eq_ok.2 ⟨columns, hcolumns, bind_eq_ok.2 ⟨(), harity, hrows⟩⟩

theorem insert_cases {s : Insert} {count : Nat} {after : Catalog}
    (ok : (insert s).result catalog = .ok (count, after)) :
    ∃ table rows, catalog.get s.table = .ok table ∧ rowsOfGroups table s = .ok rows ∧
      count = rows.length ∧ after = catalog.replace (table.insertRows rows) := by
  rw [insert_result] at ok
  obtain ⟨table, hget, ok⟩ := bind_eq_ok.1 ok
  obtain ⟨rows, hrows, ok⟩ := bind_eq_ok.1 ok
  cases ok
  exact ⟨table, rows, hget, hrows, rfl, rfl⟩

theorem update_cases {s : Update} {count : Nat} {after : Catalog}
    (ok : (update s).result catalog = .ok (count, after)) :
    ∃ table assignments changes, catalog.get s.table = .ok table ∧
      resolveAssignments table s.assignments = .ok assignments ∧
      table.rows.mapM (updatedRow? s.filter assignments) = .ok changes ∧
      count = (changes.filter (·.isSome)).length ∧ after = catalog.replace { table with
        rows := (table.rows.zip changes).map fun pair => pair.2.getD pair.1 } := by
  rw [update_result] at ok
  obtain ⟨table, hget, ok⟩ := bind_eq_ok.1 ok
  obtain ⟨changes, hrows, ok⟩ := bind_eq_ok.1 ok
  obtain ⟨assignments, hassignments, hchanges⟩ := bind_eq_ok.1 hrows
  cases ok
  exact ⟨table, assignments, changes, hget, hassignments, hchanges, rfl, rfl⟩

theorem delete_cases {s : Delete} {count : Nat} {after : Catalog}
    (ok : (delete s).result catalog = .ok (count, after)) :
    ∃ table marks, catalog.get s.table = .ok table ∧
      Condition.marks s.filter table.rows = .ok marks ∧ after = catalog.replace { table with
        rows := ((table.rows.zip marks).filter fun pair => !pair.2).map (·.1) } := by
  rw [delete_result] at ok
  obtain ⟨table, hget, ok⟩ := bind_eq_ok.1 ok
  obtain ⟨marks, hmarks, ok⟩ := bind_eq_ok.1 ok
  cases ok
  exact ⟨table, marks, hget, hmarks, rfl⟩

theorem createTable_result (s : CreateTable) :
    (createTable s).result catalog =
      if catalog.contains (Table.create s.table s.columns).name then
        if s.ifNotExists then
          .ok (.alreadyThere (Table.create s.table s.columns).name, catalog)
        else .error (.schema (.tableExists (Table.create s.table s.columns).name))
      else match firstRepeated [] (Table.create s.table s.columns).columnNames with
        | some column =>
          .error (.schema (.duplicateColumn column (Table.create s.table s.columns).name))
        | none => do
          let larger ← catalog.create (Table.create s.table s.columns)
          return (.created (Table.create s.table s.columns).name s.columns.length, larger) := by
  rw [createTable, result_bind, result_get]
  change Change.result (ite _ _ _) catalog = _
  split
  · split <;> rfl
  · cases firstRepeated [] (Table.create s.table s.columns).columnNames with
    | some column => rfl
    | none =>
      dsimp only
      rw [result_bind, Catalog.create_result, bind_assoc]
      rfl

/-- A table is created under a new name and with distinct columns, or was there already. -/
theorem createTable_cases {s : CreateTable} {what : SchemaChange} {after : Catalog}
    (ok : (createTable s).result catalog = .ok (what, after)) :
    after = catalog ∨
      firstRepeated [] (Table.create s.table s.columns).columnNames = none ∧
        catalog.create (Table.create s.table s.columns) = .ok after := by
  rw [createTable_result] at ok
  split at ok
  · split at ok
    · cases ok
      exact .inl rfl
    · cases ok
  · split at ok
    · cases ok
    · next hrepeated =>
      obtain ⟨larger, hcreate, ok⟩ := bind_eq_ok.1 ok
      cases ok
      exact .inr ⟨hrepeated, hcreate⟩

theorem dropTable_result (s : DropTable) :
    (dropTable s).result catalog =
      if !catalog.contains s.table && s.ifExists then
        .ok (.notThere (Text.lower s.table), catalog)
      else do
        let (table, smaller) ← catalog.drop s.table
        return (.dropped table.name, smaller) := by
  rw [dropTable, result_bind, result_get]
  change Change.result (ite _ _ _) catalog = _
  split
  · rfl
  · rw [result_bind]
    rfl

theorem dropTable_cases {s : DropTable} {what : SchemaChange} {after : Catalog}
    (ok : (dropTable s).result catalog = .ok (what, after)) :
    after = catalog ∨ ∃ table, catalog.drop s.table = .ok (table, after) := by
  rw [dropTable_result] at ok
  split at ok
  · cases ok
    exact .inl rfl
  · obtain ⟨⟨table, smaller⟩, hdrop, ok⟩ := bind_eq_ok.1 ok
    cases ok
    exact .inr ⟨table, hdrop⟩

theorem addColumn_result (s : AddColumn) :
    (addColumn s).result catalog = (do
      let table ← catalog.get s.table
      let wider ← table.addColumn s.column
      return (.columnAdded s.column.name table.name, catalog.replace wider)) := by
  simp only [addColumn, result_bind, result_table, result_lift, bind_assoc]
  rfl

theorem addColumn_cases {s : AddColumn} {what : SchemaChange} {after : Catalog}
    (ok : (addColumn s).result catalog = .ok (what, after)) :
    ∃ table wider, catalog.get s.table = .ok table ∧ table.addColumn s.column = .ok wider ∧
      after = catalog.replace wider := by
  rw [addColumn_result] at ok
  obtain ⟨table, hget, ok⟩ := bind_eq_ok.1 ok
  obtain ⟨wider, hwider, ok⟩ := bind_eq_ok.1 ok
  cases ok
  exact ⟨table, wider, hget, hwider, rfl⟩

end Change

namespace Statement

variable {semantics : JoinSemantics} {catalog : Catalog}

theorem execute_select (s : Select) :
    (select s).execute semantics catalog = (do
      return (.listing (← Query.select semantics catalog s), catalog)) := by
  rw [execute, run, Change.result_bind, Change.result_get]
  change Change.result (_ >>= _) catalog = _
  rw [Change.result_bind, Change.result_lift, bind_assoc]
  rfl

theorem execute_showTables :
    showTables.execute semantics catalog =
      if catalog.isEmpty then .ok (.noTables, catalog)
      else .ok (.listing (Query.showTables catalog), catalog) := by
  rw [execute, run, Change.result_bind, Change.result_get]
  change Change.result (ite _ _ _) catalog = _
  split <;> rfl

theorem execute_describe (name : String) :
    (describe name).execute semantics catalog = (do
      return (.listing (Query.describe (← catalog.get name)), catalog)) := by
  rw [execute, run, Change.result_bind, Change.result_table, bind_assoc]
  rfl

/-- The outcome of a change is told together with the catalog that the change leaves. -/
theorem result_told {α : Type} (change : Change α) (tell : α → Outcome) :
    Change.result (do return tell (← change)) catalog = (do
      let (a, after) ← change.result catalog
      return (tell a, after)) :=
  Change.result_bind _ _

theorem execute_insert (s : Insert) :
    (insert s).execute semantics catalog = (do
      let (rows, after) ← (Change.insert s).result catalog
      return (.change .insert (Text.lower s.table) rows, after)) :=
  result_told _ _

theorem execute_update (s : Update) :
    (update s).execute semantics catalog = (do
      let (rows, after) ← (Change.update s).result catalog
      return (.change .update (Text.lower s.table) rows, after)) :=
  result_told _ _

theorem execute_delete (s : Delete) :
    (delete s).execute semantics catalog = (do
      let (rows, after) ← (Change.delete s).result catalog
      return (.change .delete (Text.lower s.table) rows, after)) :=
  result_told _ _

theorem execute_createTable (s : CreateTable) :
    (createTable s).execute semantics catalog = (do
      let (what, after) ← (Change.createTable s).result catalog
      return (.definition what, after)) :=
  result_told _ _

theorem execute_dropTable (s : DropTable) :
    (dropTable s).execute semantics catalog = (do
      let (what, after) ← (Change.dropTable s).result catalog
      return (.definition what, after)) :=
  result_told _ _

theorem execute_addColumn (s : AddColumn) :
    (addColumn s).execute semantics catalog = (do
      let (what, after) ← (Change.addColumn s).result catalog
      return (.definition what, after)) :=
  result_told _ _

/-- The catalogs that a statement can lead to when it succeeds. -/
inductive LeadsTo (catalog : Catalog) : Statement → Catalog → Prop
  | unchanged (s : Statement) : LeadsTo catalog s catalog
  | insert {s : Insert} {table : Table} {rows : List Row} (hget : catalog.get s.table = .ok table)
    (hrows : Change.rowsOfGroups table s = .ok rows) :
    LeadsTo catalog (.insert s) (catalog.replace (table.insertRows rows))
  | update {s : Update} {table : Table} {assignments : List (String × Expr)}
    {changes : List (Option Row)} (hget : catalog.get s.table = .ok table)
    (hassignments : Change.resolveAssignments table s.assignments = .ok assignments)
    (hchanges : table.rows.mapM (Change.updatedRow? s.filter assignments) = .ok changes) :
    LeadsTo catalog (.update s) (catalog.replace { table with
      rows := (table.rows.zip changes).map fun pair => pair.2.getD pair.1 })
  | delete {s : Delete} {table : Table} {marks : List Bool}
    (hget : catalog.get s.table = .ok table)
    (hmarks : Condition.marks s.filter table.rows = .ok marks) :
    LeadsTo catalog (.delete s) (catalog.replace { table with
      rows := ((table.rows.zip marks).filter fun pair => !pair.2).map (·.1) })
  | createTable {s : CreateTable} {larger : Catalog}
    (hrepeated : Change.firstRepeated [] (Table.create s.table s.columns).columnNames = none)
    (hcreate : catalog.create (Table.create s.table s.columns) = .ok larger) :
    LeadsTo catalog (.createTable s) larger
  | dropTable {s : DropTable} {table : Table} {smaller : Catalog}
    (hdrop : catalog.drop s.table = .ok (table, smaller)) : LeadsTo catalog (.dropTable s) smaller
  | addColumn {s : AddColumn} {table wider : Table} (hget : catalog.get s.table = .ok table)
    (hwider : table.addColumn s.column = .ok wider) :
    LeadsTo catalog (.addColumn s) (catalog.replace wider)

/-- A statement that succeeds leads to one of these catalogs. -/
theorem leadsTo_of_execute {s : Statement} {outcome : Outcome} {after : Catalog}
    (ok : s.execute semantics catalog = .ok (outcome, after)) : LeadsTo catalog s after := by
  cases s with
  | select s =>
    rw [execute_select] at ok
    obtain ⟨_, -, ok⟩ := bind_eq_ok.1 ok
    cases ok
    exact .unchanged _
  | showTables =>
    rw [execute_showTables] at ok
    split at ok
    · cases ok
      exact .unchanged _
    · cases ok
      exact .unchanged _
  | describe name =>
    rw [execute_describe] at ok
    obtain ⟨_, -, ok⟩ := bind_eq_ok.1 ok
    cases ok
    exact .unchanged _
  | insert s =>
    rw [execute_insert] at ok
    obtain ⟨_, hchange, ok⟩ := bind_eq_ok.1 ok
    cases ok
    obtain ⟨table, rows, hget, hrows, -, hafter⟩ := Change.insert_cases hchange
    exact hafter ▸ .insert hget hrows
  | update s =>
    rw [execute_update] at ok
    obtain ⟨_, hchange, ok⟩ := bind_eq_ok.1 ok
    cases ok
    obtain ⟨table, assignments, changes, hget, hassignments, hchanges, -, hafter⟩ :=
      Change.update_cases hchange
    exact hafter ▸ .update hget hassignments hchanges
  | delete s =>
    rw [execute_delete] at ok
    obtain ⟨_, hchange, ok⟩ := bind_eq_ok.1 ok
    cases ok
    obtain ⟨table, marks, hget, hmarks, hafter⟩ := Change.delete_cases hchange
    exact hafter ▸ .delete hget hmarks
  | createTable s =>
    rw [execute_createTable] at ok
    obtain ⟨_, hchange, ok⟩ := bind_eq_ok.1 ok
    cases ok
    rcases Change.createTable_cases hchange with hafter | ⟨hrepeated, hcreate⟩
    · exact hafter ▸ .unchanged _
    · exact .createTable hrepeated hcreate
  | createIndex s =>
    cases ok
    exact .unchanged _
  | dropTable s =>
    rw [execute_dropTable] at ok
    obtain ⟨_, hchange, ok⟩ := bind_eq_ok.1 ok
    cases ok
    rcases Change.dropTable_cases hchange with hafter | ⟨table, hdrop⟩
    · exact hafter ▸ .unchanged _
    · exact .dropTable hdrop
  | addColumn s =>
    rw [execute_addColumn] at ok
    obtain ⟨_, hchange, ok⟩ := bind_eq_ok.1 ok
    cases ok
    obtain ⟨table, wider, hget, hwider, hafter⟩ := Change.addColumn_cases hchange
    exact hafter ▸ .addColumn hget hwider

end Statement
end SqlEngine
