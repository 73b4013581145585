import SqlEngine.Proofs.Catalog.Writing
import SqlEngine.Proofs.Engine.Run
import SqlEngine.Proofs.Engine.Selection
import SqlEngine.Proofs.Row.Last
import SqlEngine.Proofs.Table.Cells

/-!
# What an INSERT does

An INSERT fits a table if the table has the columns that it names, every group of values is as long
as the list of these columns, and all expressions have values. Then it puts one row for each group
behind the rows of the table. A column gets the last value that the group gives for it; where there
is none, or a missing one, an integer primary key gets the next number, from group to group, and any
other column stays missing. An INSERT that does not fit fails, and leaves everything as it was.
-/
namespace SqlEngine

namespace Insert

/-- The columns that the groups of an INSERT give values for, as they are named. -/
def names (s : Insert) (table : Table) : List String := s.columns.getD table.columnNames

/-- What an INSERT needs of the table that it names. -/
structure Fits (s : Insert) (table : Table) : Prop where
  columns_there : ∀ name ∈ s.names table, table.hasColumn name = true
  lengths : ∀ group ∈ s.groups, group.length = (s.names table).length
  values_there : ∀ group ∈ s.groups, ∀ e ∈ group, ∃ v, e.evalOperand .empty = .ok v

/-- What some values, one for each of the named columns, give for a column: the last of those that
stand under its name, and a missing value if none does. -/
def given (s : Insert) (table : Table) (column : String) (values : List Value) : Value :=
  (Row.lastUnder? column ((s.names table).zip values)).getD .null

/-- A table after an INSERT whose groups have the given values. -/
structure Extends (s : Insert) (groups : List (List Value)) (table changed : Table) : Prop where
  name : changed.name = table.name
  columns : changed.columns = table.columns
  rows : ∃ added, changed.rows = table.rows ++ added ∧ added.length = groups.length ∧
    (∀ row ∈ added, row.names = table.columnNames) ∧
    ∀ column ∈ table.columnNames,
      added.map (·.getD column) = table.cellsPut column (groups.map (s.given table column))
  counters : ∀ column, changed.counter column =
    table.counter column + table.numbersTaken column (groups.map (s.given table column))

end Insert

namespace Change

variable {catalog after : Catalog} {table : Table} {s : Insert}

theorem exists_resolveColumns {names : List String} :
    (∃ columns, resolveColumns table names = .ok columns) ↔
      ∀ name ∈ names, table.hasColumn name = true := by
  refine exists_mapM_eq_ok.trans (forall₂_congr fun name _ => ?_)
  rw [Table.hasColumn]
  cases table.column? name with
  | none =>
    constructor
    · rintro ⟨found, h⟩
      cases h
    · intro h
      cases h
  | some column => exact ⟨fun _ => rfl, fun _ => ⟨column.name, rfl⟩⟩

theorem hasColumn_of_mem {name : String} (h : name ∈ table.columnNames) :
    table.hasColumn name = true := by
  obtain ⟨column, hcolumn, rfl⟩ := List.mem_map.1 h
  rw [Table.hasColumn, Table.column?, List.find?_isSome]
  exact ⟨column, hcolumn, Text.sameName_refl _⟩

/-- The columns of an INSERT are found if the table has them all. -/
theorem exists_targetColumns :
    (∃ columns, targetColumns table s = .ok columns) ↔
      ∀ name ∈ s.names table, table.hasColumn name = true := by
  unfold targetColumns Insert.names
  cases s.columns with
  | some names => exact exists_resolveColumns
  | none => exact ⟨fun _ name => hasColumn_of_mem, fun _ => ⟨_, rfl⟩⟩

/-- The columns that are found are the named ones, in the spelling of the table. -/
theorem targetColumns_related {columns : List String} (h : targetColumns table s = .ok columns) :
    List.Forall₂ (fun own found => Text.sameName own found = true) (s.names table) columns := by
  unfold targetColumns at h
  unfold Insert.names
  cases hcolumns : s.columns with
  | none =>
    rw [hcolumns] at h
    cases h
    exact List.forall₂_same.2 fun name _ => Text.sameName_refl name
  | some names =>
    rw [hcolumns] at h
    exact resolveColumns_related h

theorem exists_rowOfGroup {columns : List String} {group : List Expr} :
    (∃ row, rowOfGroup table columns group = .ok row) ↔
      ∀ e ∈ group, ∃ v, e.evalOperand .empty = .ok v := by
  rw [← exists_mapM_eq_ok]
  constructor
  · rintro ⟨row, h⟩
    obtain ⟨values, hvalues, -⟩ := bind_eq_ok.1 h
    exact ⟨values, hvalues⟩
  · rintro ⟨values, hvalues⟩
    exact ⟨_, bind_of_ok hvalues _⟩

/-- The rows of an INSERT can be made exactly for the tables that it fits. -/
theorem exists_rowsOfGroups : (∃ rows, rowsOfGroups table s = .ok rows) ↔ s.Fits table := by
  constructor
  · rintro ⟨rows, h⟩
    obtain ⟨columns, hcolumns, harity, hrows⟩ := rowsOfGroups_eq_ok.1 h
    refine ⟨exists_targetColumns.1 ⟨columns, hcolumns⟩, ?_, ?_⟩
    · rw [(targetColumns_related hcolumns).length_eq]
      exact checkArity_eq_ok.1 harity
    · intro group hgroup
      exact exists_rowOfGroup.1 (exists_mapM_eq_ok.1 ⟨rows, hrows⟩ group hgroup)
  · intro hfits
    obtain ⟨columns, hcolumns⟩ := exists_targetColumns.2 hfits.columns_there
    have harity : checkArity columns s.groups = .ok () := by
      rw [checkArity_eq_ok, ← (targetColumns_related hcolumns).length_eq]
      exact hfits.lengths
    have hgroups : ∀ group ∈ s.groups, ∃ row, rowOfGroup table columns group = .ok row :=
      fun group hgroup => exists_rowOfGroup.2 (hfits.values_there group hgroup)
    obtain ⟨rows, hrows⟩ := exists_mapM_eq_ok.2 hgroups
    exact ⟨rows, rowsOfGroups_eq_ok.2 ⟨columns, hcolumns, harity, hrows⟩⟩

/-- The row of a group holds in each column what the values of the group give for it. -/
theorem getD_rowOfGroup_eq {columns : List String} (hcolumns : targetColumns table s = .ok columns)
    {group : List Expr} {values : List Value}
    (hvalues : group.mapM (Expr.evalOperand .empty) = .ok values) {row : Row}
    (hrow : rowOfGroup table columns group = .ok row) (column : String) :
    row.getD column = s.given table column values := by
  obtain rfl : table.blankRow.setAll (columns.zip values) = row :=
    Except.ok.inj ((bind_of_ok hvalues _).symm.trans hrow)
  have hblank : table.blankRow.getD column = .null := Row.getD_nulls _ column
  rw [Insert.given, Row.lastUnder?_zip_congr (targetColumns_related hcolumns), Row.getD,
    Row.get?_setAll]
  cases Row.lastUnder? column (columns.zip values) with
  | none => exact hblank
  | some v => rfl

/-- The rows of an INSERT extend its table by what the groups give. -/
theorem extends_insertRows (hw : table.WellFormed) {rows : List Row}
    (hgiven : rowsOfGroups table s = .ok rows) {groups : List (List Value)}
    (hgroups : s.groups.mapM (fun group => group.mapM (Expr.evalOperand .empty)) = .ok groups) :
    s.Extends groups table (table.insertRows rows) := by
  obtain ⟨columns, hcolumns, -, hrows⟩ := rowsOfGroups_eq_ok.1 hgiven
  have hpairs := (mapM_eq_ok.1 hrows).flip
  have hcells : ∀ column, rows.map (·.getD column) = groups.map (s.given table column) := by
    intro column
    rw [← List.forall₂_eq_eq_eq, List.forall₂_map_left_iff, List.forall₂_map_right_iff]
    refine forall₂_comp (fun row group values hrow hvalues => ?_) hpairs (mapM_eq_ok.1 hgroups)
    exact getD_rowOfGroup_eq hcolumns hvalues hrow column
  have hlength : rows.length = groups.length :=
    hpairs.length_eq.trans (mapM_eq_ok.1 hgroups).length_eq
  have hshaped := names_rowsOfGroups hw hgiven
  have hsubset := Table.WellFormed.numberedColumns_subset table
  have hown : ∀ column ∈ table.columnNames, Table.OwnName table.numberedColumns column :=
    fun column => .of_distinct hw.columns_distinct hsubset
  obtain ⟨added, hadded, hcount, hput⟩ := Table.exists_added table rows
  constructor
  · exact Table.name_insertRows table rows
  · exact Table.columns_insertRows table rows
  · refine ⟨added, hadded, hcount.trans hlength, fun row hrow => ?_, fun column hcolumn => ?_⟩
    · have hmem : row ∈ (table.insertRows rows).rows := by
        rw [hadded]
        exact List.mem_append_right _ hrow
      rw [(hw.insertRows hshaped).rows_shaped row hmem, Table.columnNames,
        Table.columns_insertRows]
      rfl
    · rw [hput column (hown column hcolumn), hcells]
  · intro column
    rw [Table.counter_insertRows (fun hcolumn => hown column (hsubset column hcolumn)), hcells]

/-- On a table that it fits, an INSERT succeeds and extends the table. -/
theorem insert_extends (h : catalog.WellFormed) (hfind : catalog.find? s.table = some table)
    (hfits : s.Fits table) :
    ∃ groups changed, List.Forall₂ (List.Forall₂ fun e v => e.evalOperand .empty = .ok v)
        s.groups groups ∧
      (insert s).result catalog = .ok (s.groups.length, catalog.replace changed) ∧
      s.Extends groups table changed := by
  have hget := Catalog.get_eq_ok.2 hfind
  obtain ⟨rows, hrows⟩ := exists_rowsOfGroups.2 hfits
  obtain ⟨columns, -, -, hpairs⟩ := rowsOfGroups_eq_ok.1 hrows
  obtain ⟨groups, hgroups⟩ := exists_mapM_eq_ok.2 fun group hgroup =>
    exists_mapM_eq_ok.2 (hfits.values_there group hgroup)
  refine ⟨groups, table.insertRows rows, ?_, ?_, extends_insertRows (h.of_get hget) hrows
    hgroups⟩
  · exact List.Forall₂.imp (fun _ _ => mapM_eq_ok.1) (mapM_eq_ok.1 hgroups)
  · rw [insert_result, (mapM_eq_ok.1 hpairs).length_eq]
    exact bind_eq_ok.2 ⟨table, hget, bind_eq_ok.2 ⟨rows, hrows, rfl⟩⟩

end Change

namespace Engine

/-- Whatever scripts an engine has run, an INSERT succeeds exactly if its table is there and it fits
the table. Then the rows of the table are followed by one for each group, which hold what the
groups give and, in integer primary keys, the numbers that follow the counter where the groups give
no value; the counters have moved by as many numbers, and nothing else has changed. An INSERT that
fails, whatever text it was read from, leaves the engine as it was. -/
theorem insert_extends_table (settings : Settings) (commands : List Command)
    (semantics : JoinSemantics) (s : Insert) :
    let engine := (Engine.start settings).run commands
    (∀ table, engine.catalog.find? s.table = some table → s.Fits table →
      ∃ groups after changed, List.Forall₂ (List.Forall₂ fun e v => e.evalOperand .empty = .ok v)
          s.groups groups ∧
        (Statement.insert s).execute semantics engine.catalog =
          .ok (.change .insert (Text.lower s.table) s.groups.length, after) ∧
        after.find? s.table = some changed ∧ s.Extends groups table changed ∧
        (∀ other, Text.lower other ≠ Text.lower s.table →
          after.find? other = engine.catalog.find? other) ∧
        after.order = engine.catalog.order) ∧
    ((∀ table, engine.catalog.find? s.table = some table → ¬ s.Fits table) →
      ∃ e, (Statement.insert s).execute semantics engine.catalog = .error e ∧
        ∀ raw, Statement.ofText engine.settings.statementPreview (Script.stripComments raw) =
            .ok (.insert s) →
          engine.runStatement raw = (some (.failed e raw), engine)) := by
  intro engine
  have hw : engine.catalog.WellFormed := run_wellFormed settings commands
  refine ⟨fun table hfind hfits => ?_, fun hunfit => ?_⟩
  · obtain ⟨groups, changed, hgroups, hinsert, hextends⟩ := Change.insert_extends hw hfind hfits
    obtain ⟨hafter, hothers⟩ := hw.find?_replace hfind hextends.name
    refine ⟨groups, _, changed, hgroups, ?_, hafter, hextends, hothers, rfl⟩
    rw [Statement.execute_insert, hinsert]
    rfl
  · cases hinsert : (Change.insert s).result engine.catalog with
    | ok result =>
      obtain ⟨table, rows, hget, hrows, -⟩ := Change.insert_cases hinsert
      have hfits := Change.exists_rowsOfGroups.1 ⟨rows, hrows⟩
      exact absurd hfits (hunfit table (Catalog.get_eq_ok.1 hget))
    | error e =>
      have hexecute : ∀ joins, (Statement.insert s).execute joins engine.catalog = .error e := by
        intro joins
        rw [Statement.execute_insert, hinsert]
        rfl
      exact ⟨e, hexecute semantics, fun raw hread => runStatement_of_fails hread (hexecute _)⟩

/-- The table of an INSERT with the lengths of its groups. -/
def insertShape? : Statement → Option (String × List Nat)
  | .insert s => some (s.table, s.groups.map List.length)
  | _ => none

/-- Three rows for columns of which one is named twice: the first and the last of them get the next
numbers, and the one between brings its own. Two rows of which the second is too short are read, but
not inserted. -/
theorem insert_extends_table_letters :
    let commands : List Command :=
      [.script "CREATE TABLE t(k INT PRIMARY KEY,v);INSERT INTO t VALUES(NULL,'a')"]
    let catalog := ((Engine.start .standard).run commands).catalog
    let table : Table := ⟨"t", [⟨"k", "INT", true, false⟩, .plain "v" "TEXT"],
      [⟨[("k", .ofNat 1), ("v", .text "a")]⟩], [("k", 1)]⟩
    let group (b : String) (key : Value) (c : String) : List Expr :=
      [.literal (.text b), .literal key, .literal (.text c)]
    let s : Insert := ⟨"t", some ["v", "k", "v"],
      [group "b" .null "c", group "d" (.ofNat 7) "e", group "f" .null "g"]⟩
    let raw := "INSERT INTO t VALUES(8,'h'),(9)"
    catalog.find? "t" = some table ∧ s.Fits table ∧
      (∃ after changed added, (Statement.insert s).execute .standard catalog =
          .ok (.change .insert "t" 3, after) ∧
        after.find? "t" = some changed ∧ changed.rows = table.rows ++ added ∧
        added.map (·.getD "k") = [.ofNat 2, .ofNat 7, .ofNat 3] ∧
        added.map (·.getD "v") = [.text "c", .text "e", .text "g"] ∧
        changed.counter "k" = 3) ∧
      ∃ short e, Statement.ofText Settings.standard.statementPreview (Script.stripComments raw) =
          .ok (.insert short) ∧
        ¬ short.Fits table ∧ (Statement.insert short).execute .standard catalog = .error e ∧
        ((Engine.start .standard).run commands).runStatement raw =
          (some (.failed e raw), (Engine.start .standard).run commands) := by
  intro commands catalog table group s raw
  have hcatalog : catalog = ⟨[("t", table)], ["t"]⟩ := by decide +kernel
  have hname : Text.lower "t" = "t" := by decide +kernel
  have hfind : catalog.find? "t" = some table := by
    rw [hcatalog, Catalog.find?, hname]
    rfl
  have hnames : table.columnNames = ["k", "v"] := rfl
  have hnumbered : table.numberedColumns = ["k"] := by decide +kernel
  have hgroups : s.groups.mapM (fun group => group.mapM (Expr.evalOperand .empty)) = .ok
      [[.text "b", .null, .text "c"], [.text "d", .ofNat 7, .text "e"],
        [.text "f", .null, .text "g"]] := rfl
  have hfits : s.Fits table := by
    constructor
    · have hsubset : ∀ name ∈ ["v", "k", "v"], name ∈ ["k", "v"] := by decide
      exact fun name h => Change.hasColumn_of_mem (hsubset name h)
    · simp [s, group, Insert.names]
    · intro group hgroup
      exact exists_mapM_eq_ok.1 (exists_mapM_eq_ok.1 ⟨_, hgroups⟩ group hgroup)
  have hdiffer : Text.sameName "v" "k" = false := by
    rw [← Bool.not_eq_true, Text.sameName_iff, Text.upperAscii, Text.upperAscii,
      ← String.toList_inj, String.toList_map, String.toList_map]
    decide
  have hgiven : ∀ b (key : Value) c, s.given table "k" [.text b, key, .text c] = key ∧
      s.given table "v" [.text b, key, .text c] = .text c := by
    intro b key c
    simp [Insert.given, Insert.names, s, Row.lastUnder?, Text.sameName_refl, hdiffer]
  obtain ⟨groups, after, changed, hvalues, hexecute, hafter, hextends, -⟩ :=
    (insert_extends_table .standard commands .standard s).1 table hfind hfits
  have hsame := mapM_eq_ok.2 (hvalues.imp fun _ _ => mapM_eq_ok.2)
  obtain rfl := Except.ok.inj (hgroups.symm.trans hsame)
  obtain ⟨added, hadded, -, -, hcells⟩ := hextends.rows
  have hshape : (Statement.ofText Settings.standard.statementPreview
      (Script.stripComments raw)).toOption.map insertShape? = some (some ("t", [2, 1])) := by
    decide +kernel
  obtain ⟨statement, hread, hshape⟩ := exists_ok_of_map hshape
  cases statement with
  | insert short =>
    obtain ⟨htable, hlengths⟩ := Prod.mk.inj (Option.some.inj hshape)
    have hunfit : ¬ short.Fits table := by
      intro h
      have hequal : ∀ length ∈ short.groups.map List.length,
          length = (short.names table).length := List.forall_mem_map.2 h.lengths
      rw [hlengths] at hequal
      have hlong := hequal 2 (by decide)
      have hshort := hequal 1 (by decide)
      omega
    obtain ⟨e, hfails, hstays⟩ :=
      (insert_extends_table .standard commands .standard short).2 fun found hfound => by
        rw [htable] at hfound
        rw [← Option.some.inj (hfind.symm.trans hfound)]
        exact hunfit
    rw [settings_run] at hstays
    refine ⟨hfind, hfits, ⟨after, changed, added, ?_, hafter, hadded, ?_, ?_, ?_⟩,
      short, e, hread, hunfit, hfails, hstays raw hread⟩
    · rw [hexecute, hname]
      rfl
    · rw [hcells "k" (by simp [hnames])]
      simp only [List.map_cons, List.map_nil, hgiven, Table.cellsPut, hnumbered]
      decide +kernel
    · rw [hcells "v" (by simp [hnames])]
      simp only [List.map_cons, List.map_nil, hgiven, Table.cellsPut, hnumbered]
      decide +kernel
    · rw [hextends.counters]
      simp only [List.map_cons, List.map_nil, hgiven, Table.numbersTaken, hnumbered]
      decide +kernel
  | _ => cases hshape

end Engine
end SqlEngine
