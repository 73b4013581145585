import Mathlib.Data.List.Nodup
import SqlEngine.Proofs.Catalog.Change
import SqlEngine.Proofs.Catalog.Insertion
import SqlEngine.Proofs.Query.Failure
import SqlEngine.Proofs.Query.Selection
import SqlEngine.Proofs.Row.Last
import SqlEngine.Proofs.Table.Numbering

/-!
# What INSERT and UPDATE write

A name in the column list of an INSERT or in the assignments of an UPDATE that is the name of a
column of the table is found there, and the value beside it is what the column holds afterwards: in
the rows that are added, unless a number takes the place of a missing value, and in the rows that
the condition selects. Of several names of one column the last one counts, so the column is taken to
be named once.
-/
namespace SqlEngine

namespace Table

variable {table : Table} {i : Nat} {column : Column}

/-- The cell at the place of a column is the one under the name of the column. -/
theorem WellFormed.values_getElem? (h : table.WellFormed)
    (hcolumn : table.columns[i]? = some column) {row : Row} (hrow : row.names = table.columnNames) :
    row.values[i]? = some (row.getD column.name) := by
  have hdistinct : Row.DistinctNames row.names := hrow ▸ h.columns_distinct
  rw [← Row.map_getD_names hdistinct, hrow, columnNames, List.getElem?_map, List.getElem?_map,
    hcolumn]
  rfl

/-- A column is found under every name that is the same as its own. -/
theorem WellFormed.column?_eq (h : table.WellFormed) (hcolumn : table.columns[i]? = some column)
    {name : String} (hsame : Text.sameName column.name name = true) :
    table.column? name = some column := by
  have hmem := List.mem_of_getElem? hcolumn
  cases hfound : table.column? name with
  | none =>
    have hnone := List.find?_eq_none.1 hfound column hmem
    exact absurd hsame hnone
  | some found =>
    have hother := (Text.sameName_congr (sameName_of_column? hfound) column.name).trans
      ((Text.sameName_comm _ _).trans hsame)
    have hmemfound := List.mem_of_find?_eq_some hfound
    have hname := h.columns_distinct.eq_of_sameName (List.mem_map_of_mem hmemfound)
      (List.mem_map_of_mem hmem) hother
    exact congrArg some (List.inj_on_of_nodup_map h.columns_distinct.nodup hmemfound hmem hname)

/-- A column whose cells are numbered is one of the numbered columns, and no other column is. -/
theorem WellFormed.isAutoIncrement_of_mem (h : table.WellFormed)
    (hcolumn : table.columns[i]? = some column) (hmem : column.name ∈ table.numberedColumns) :
    column.isAutoIncrement = true := by
  obtain ⟨numbered, hnumbered, hname⟩ := List.mem_map.1 hmem
  obtain ⟨hin, hauto⟩ := List.mem_filter.1 hnumbered
  obtain ⟨k, hk⟩ := List.getElem?_of_mem hin
  have hsame : Text.sameName numbered.name column.name = true := by
    rw [hname]
    exact Text.sameName_refl _
  have hfirst := h.column?_eq hk hsame
  rw [h.column?_eq hcolumn (Text.sameName_refl _)] at hfirst
  rw [Option.some.inj hfirst]
  exact hauto

/-- Rows that are inserted are added behind those that are there. They hold in a column what they
were given, unless a number takes the place of a missing value. -/
theorem WellFormed.exists_rows_insertRows (h : table.WellFormed)
    (hcolumn : table.columns[i]? = some column) {rows : List Row}
    (shaped : ∀ row ∈ rows, row.names = table.columnNames) :
    ∃ added, (table.insertRows rows).rows = table.rows ++ added ∧
      List.Forall₂ (fun given stored =>
        (given.getD column.name).isNull = false ∨ column.isAutoIncrement = false →
          stored.values[i]? = some (given.getD column.name)) rows added := by
  induction rows generalizing table with
  | nil => exact ⟨[], (List.append_nil _).symm, .nil⟩
  | cons row rest ih =>
    obtain ⟨hfirst, hrest⟩ := List.forall_mem_cons.1 shaped
    have hnext := h.insertRow hfirst
    have hown : OwnName table.numberedColumns column.name :=
      .of_distinct h.columns_distinct (numberedColumns_subset table)
        (List.mem_map_of_mem (List.mem_of_getElem? hcolumn))
    obtain ⟨added, hadded, hall⟩ := ih hnext hcolumn hrest
    refine ⟨_ :: added, hadded.trans (List.append_assoc _ [_] added), .cons ?_ hall⟩
    intro hvalue
    have hspec := numberRow_spec hown row table.counters
    have hnames := hnext.rows_shaped _ (List.mem_append_right _ List.mem_cons_self)
    rw [if_neg] at hspec
    · exact (hnext.values_getElem? hcolumn hnames).trans (congrArg some hspec.1)
    · rintro ⟨hnumbered, hnull⟩
      rcases hvalue with hvalue | hvalue
      · rw [hvalue] at hnull
        cases hnull
      · rw [h.isAutoIncrement_of_mem hcolumn hnumbered] at hvalue
        cases hvalue

end Table

namespace Change

variable {catalog after : Catalog} {name : String} {table : Table} {i : Nat} {column : Column}

theorem resolveColumns_eq_ok {names columns : List String} :
    resolveColumns table names = .ok columns ↔
      List.Forall₂ (fun own found => (table.column? own).map (·.name) = some found)
        names columns := by
  refine mapM_eq_ok.trans (Iff.of_eq ?_)
  congr! 3 with own found
  cases table.column? own <;> simp

/-- Resolved names are the names themselves, in the spelling of the table. -/
theorem resolveColumns_related {names columns : List String}
    (h : resolveColumns table names = .ok columns) :
    List.Forall₂ (fun own found => Text.sameName own found = true) names columns := by
  refine (resolveColumns_eq_ok.1 h).imp fun own found hfound => ?_
  obtain ⟨c, hc, rfl⟩ := Option.map_eq_some_iff.1 hfound
  rw [Text.sameName_comm]
  exact Table.sameName_of_column? hc

/-- Of names that are resolved, those that are the same as the name of a column give the column, and
no others do. -/
theorem getElem?_resolveColumns (h : table.WellFormed) (hcolumn : table.columns[i]? = some column)
    {names columns : List String} (hresolved : resolveColumns table names = .ok columns) {j : Nat}
    {own : String} (hown : names[j]? = some own) (hsame : Text.sameName column.name own = true) :
    columns[j]? = some column.name := by
  obtain ⟨found, hfound, hstep⟩ :=
    exists_getElem?_of_forall₂ (resolveColumns_eq_ok.1 hresolved) hown
  rw [h.column?_eq hcolumn hsame] at hstep
  cases hstep
  exact hfound

theorem once_of_resolveColumns {names columns : List String}
    (hresolved : resolveColumns table names = .ok columns) {j : Nat}
    (honce : ∀ k other, names[k]? = some other → Text.sameName column.name other = true → k = j) :
    ∀ k found, columns[k]? = some found → Text.sameName found column.name = true → k = j := by
  intro k found hfound hsame
  obtain ⟨own, hown, hname⟩ :=
    exists_getElem?_of_forall₂ (resolveColumns_related hresolved).flip hfound
  rw [Text.sameName_comm] at hsame
  rw [Text.sameName_comm] at hname
  exact honce k own hown (Text.sameName_trans hsame hname)

/-- Values that are written to columns by their places: what is written once is there. -/
theorem getD_setAll_zip {columns : List String} {values : List Value} {row : Row} {j : Nat}
    {value : Value} (hfound : columns[j]? = some column.name) (hvalue : values[j]? = some value)
    (honce : ∀ k found, columns[k]? = some found → Text.sameName found column.name = true → k = j) :
    (row.setAll (columns.zip values)).getD column.name = value := by
  have hfield : (columns.zip values)[j]? = some (column.name, value) :=
    List.getElem?_zip_eq_some.2 ⟨hfound, hvalue⟩
  refine Row.getD_setAll_of_once hfield (Text.sameName_refl _) fun k other hother hsame => ?_
  exact honce k other.1 (List.getElem?_zip_eq_some.1 hother).1 hsame

theorem checkArity_eq_ok {columns : List String} {groups : List (List Expr)} :
    checkArity columns groups = .ok () ↔ ∀ group ∈ groups, group.length = columns.length := by
  unfold checkArity
  cases hfind : groups.find? (·.length != columns.length) with
  | none => simpa using List.find?_eq_none.1 hfind
  | some group =>
    have hlength : group.length ≠ columns.length := by simpa using List.find?_some hfind
    constructor
    · intro h
      cases h
    · exact fun h => absurd (h group (List.mem_of_find?_eq_some hfind)) hlength

/-- The row that a group of values makes holds in a column the value that stands in its place. -/
theorem getD_rowOfGroup {columns : List String} {group : List Expr} {row : Row}
    (hrow : rowOfGroup table columns group = .ok row) (hlength : group.length = columns.length)
    {j : Nat} (hplace : columns[j]? = some column.name)
    (honce : ∀ k found, columns[k]? = some found → Text.sameName found column.name = true → k = j) :
    ∃ e v, group[j]? = some e ∧ e.evalOperand .empty = .ok v ∧ row.getD column.name = v := by
  obtain ⟨values, hvalues, hrow⟩ := bind_eq_ok.1 hrow
  cases hrow
  obtain ⟨hj, -⟩ := List.getElem?_eq_some_iff.1 hplace
  have he : group[j]? = some group[j] := List.getElem?_eq_getElem (hlength ▸ hj)
  obtain ⟨v, hv, hvalue⟩ := exists_getElem?_of_forall₂ (mapM_eq_ok.1 hvalues) he
  exact ⟨group[j], v, he, hvalue, getD_setAll_zip hplace hv honce⟩

/-- The rows of an INSERT hold in a column the values that stand in its place, unless a number takes
the place of a missing value. -/
theorem insert_writes (h : catalog.WellFormed) (hfind : catalog.find? name = some table)
    (hcolumn : table.columns[i]? = some column) {names : List String} {groups : List (List Expr)}
    {count : Nat} (ok : (insert ⟨name, some names, groups⟩).result catalog = .ok (count, after))
    {j : Nat} {own : String} (hown : names[j]? = some own) (hsame : Text.sameName column.name own = true)
    (honce : ∀ k other, names[k]? = some other → Text.sameName column.name other = true → k = j) :
    ∃ changed added, after.find? name = some changed ∧ changed.rows = table.rows ++ added ∧
      List.Forall₂ (fun group row => ∃ e v, group[j]? = some e ∧ e.evalOperand .empty = .ok v ∧
        (v.isNull = false ∨ column.isAutoIncrement = false → row.values[i]? = some v))
          groups added := by
  have hget := Catalog.get_eq_ok.2 hfind
  have hw := h.of_get hget
  obtain ⟨found, rows, hfound, hgiven, -, rfl⟩ := insert_cases ok
  obtain rfl : table = found := Except.ok.inj (hget.symm.trans hfound)
  obtain ⟨columns, hcolumns, harity, hrows⟩ := rowsOfGroups_eq_ok.1 hgiven
  have hresolved : resolveColumns table names = .ok columns := hcolumns
  have hplace := getElem?_resolveColumns hw hcolumn hresolved hown hsame
  have hsingle := once_of_resolveColumns hresolved honce
  have hshaped := names_rowsOfGroups hw hgiven
  obtain ⟨added, hadded, hstored⟩ := hw.exists_rows_insertRows hcolumn hshaped
  obtain ⟨hchanged, -⟩ := h.find?_replace hfind (Table.name_insertRows table rows)
  have hgroups := (List.forall₂_and_left _ _).2
    ⟨checkArity_eq_ok.1 harity, mapM_eq_ok.1 hrows⟩
  refine ⟨_, added, hchanged, hadded, forall₂_comp ?_ hgroups hstored⟩
  rintro group given stored ⟨hlength, hgiven⟩ hkept
  obtain ⟨e, v, he, hv, rfl⟩ := getD_rowOfGroup hgiven hlength hplace hsingle
  exact ⟨e, _, he, hv, hkept⟩

/-- The assignments of an UPDATE keep their places and their expressions when they are resolved. -/
theorem resolveAssignments_eq_ok {written assignments : List (String × Expr)}
    (h : resolveAssignments table written = .ok assignments) :
    ∃ columns, resolveColumns table (written.map (·.1)) = .ok columns ∧
      assignments = columns.zip (written.map (·.2)) := by
  obtain ⟨columns, hresolved, h⟩ := bind_eq_ok.1 h
  exact ⟨columns, hresolved, (Except.ok.inj h).symm⟩

theorem getElem?_resolveAssignments (h : table.WellFormed)
    (hcolumn : table.columns[i]? = some column) {written assignments : List (String × Expr)}
    (hresolved : resolveAssignments table written = .ok assignments) {j : Nat} {own : String}
    {e : Expr} (hown : written[j]? = some (own, e))
    (hsame : Text.sameName column.name own = true) : assignments[j]? = some (column.name, e) := by
  obtain ⟨columns, hcolumns, rfl⟩ := resolveAssignments_eq_ok hresolved
  have hname : (written.map (·.1))[j]? = some own := by
    rw [List.getElem?_map, hown]
    rfl
  have he : (written.map (·.2))[j]? = some e := by
    rw [List.getElem?_map, hown]
    rfl
  exact List.getElem?_zip_eq_some.2 ⟨getElem?_resolveColumns h hcolumn hcolumns hname hsame, he⟩

theorem once_of_resolveAssignments {written assignments : List (String × Expr)}
    (hresolved : resolveAssignments table written = .ok assignments) {j : Nat}
    (honce : ∀ k other, written[k]? = some other →
      Text.sameName column.name other.1 = true → k = j) :
    ∀ k found, (assignments.map (·.1))[k]? = some found →
      Text.sameName found column.name = true → k = j := by
  obtain ⟨columns, hcolumns, rfl⟩ := resolveAssignments_eq_ok hresolved
  intro k found hfound
  rw [List.getElem?_map] at hfound
  obtain ⟨pair, hpair, rfl⟩ := Option.map_eq_some_iff.1 hfound
  refine once_of_resolveColumns hcolumns (fun k other hother => ?_) k pair.1
    (List.getElem?_zip_eq_some.1 hpair).1
  rw [List.getElem?_map] at hother
  obtain ⟨assignment, hassignment, rfl⟩ := Option.map_eq_some_iff.1 hother
  exact honce k assignment hassignment

/-- What becomes of one row in an UPDATE. -/
theorem values_updatedRow (hcolumn : table.WellFormed) (hi : table.columns[i]? = some column)
    {row : Row} (hrow : row.names = table.columnNames) {assignments : List (String × Expr)}
    (hsubset : ∀ own ∈ assignments.map (·.1), own ∈ table.columnNames) {j : Nat} {e : Expr}
    (hplace : assignments[j]? = some (column.name, e))
    (honce : ∀ k found, (assignments.map (·.1))[k]? = some found →
      Text.sameName found column.name = true → k = j)
    {filter : Option Condition} {change : Option Row}
    (h : updatedRow? filter assignments row = .ok change) :
    (Condition.selects filter row = true →
      ∃ v, e.evalOperand (.row row) = .ok v ∧ (change.getD row).values[i]? = some v) ∧
    (Condition.selects filter row = false → change.getD row = row) := by
  obtain ⟨holds, hholds, hchange⟩ := bind_eq_ok.1 h
  rw [Condition.clauseHolds_eq_selects hholds]
  cases holds with
  | false =>
    cases hchange
    exact ⟨nofun, fun _ => rfl⟩
  | true =>
    obtain ⟨values, hvalues, hchange⟩ := bind_eq_ok.1 hchange
    cases hchange
    refine ⟨fun _ => ?_, nofun⟩
    obtain ⟨v, hv, hvalue⟩ := exists_getElem?_of_forall₂ (mapM_eq_ok.1 hvalues) hplace
    have hnames := names_updatedRow (hrow ▸ hsubset) h
    have hfound : (assignments.map (·.1))[j]? = some column.name := by
      rw [List.getElem?_map, hplace]
      rfl
    refine ⟨v, hvalue, ?_⟩
    rw [Option.getD_some, hcolumn.values_getElem? hi (hnames.trans hrow),
      getD_setAll_zip hfound hv honce]

/-- A row that an UPDATE changes holds in an assigned column the value of the assigned expression in
the row before; the other rows stay as they are. -/
theorem update_writes (h : catalog.WellFormed) (hfind : catalog.find? name = some table)
    (hcolumn : table.columns[i]? = some column) {written : List (String × Expr)}
    {filter : Option Condition} {count : Nat}
    (ok : (update ⟨name, written, filter⟩).result catalog = .ok (count, after)) {j : Nat}
    {own : String} {e : Expr} (hown : written[j]? = some (own, e))
    (hsame : Text.sameName column.name own = true)
    (honce : ∀ k other, written[k]? = some other →
      Text.sameName column.name other.1 = true → k = j) :
    ∃ changed, after.find? name = some changed ∧ List.Forall₂ (fun row new =>
      (Condition.selects filter row = true →
        ∃ v, e.evalOperand (.row row) = .ok v ∧ new.values[i]? = some v) ∧
      (Condition.selects filter row = false → new = row)) table.rows changed.rows := by
  have hget := Catalog.get_eq_ok.2 hfind
  have hw := h.of_get hget
  obtain ⟨found, assignments, changes, hfound, hassignments, hchanges, -, rfl⟩ := update_cases ok
  obtain rfl : table = found := Except.ok.inj (hget.symm.trans hfound)
  have hsubset := resolveAssignments_subset hassignments
  have hplace := getElem?_resolveAssignments hw hcolumn hassignments hown hsame
  have hsingle := once_of_resolveAssignments hassignments honce
  have hrows := (List.forall₂_and_left _ _).2 ⟨hw.rows_shaped, mapM_eq_ok.1 hchanges⟩
  let changed : Table :=
    { table with rows := (table.rows.zip changes).map fun pair => pair.2.getD pair.1 }
  have hkept : changed.name = table.name := rfl
  obtain ⟨hchanged, -⟩ := h.find?_replace hfind hkept
  refine ⟨changed, hchanged, forall₂_map_zip (f := fun row change => change.getD row)
    (fun row change hrow => ?_) hrows⟩
  exact values_updatedRow hw hcolumn hrow.1 hsubset hplace hsingle hrow.2

section Failures

variable {own : String}

theorem findsColumn_resolveColumns (hown : table.hasColumn own = true) (names : List String) :
    FindsColumn own (resolveColumns table names) := by
  refine .mapM fun other _ => ?_
  split
  · exact .ok _
  · next hmissing =>
    refine .unknown fun hname => ?_
    rw [Table.hasColumn, ← hname, hmissing] at hown
    cases hown

/-- An INSERT does not fail for want of a column that its table has. -/
theorem findsColumn_insert (hfind : catalog.find? name = some table)
    (hown : table.hasColumn own = true) (columns : Option (List String))
    (groups : List (List Expr)) :
    FindsColumn own ((insert ⟨name, columns, groups⟩).result catalog) := by
  have hget := Catalog.get_eq_ok.2 hfind
  rw [insert_result]
  refine (catalog.findsColumn_get name).bind fun found hfound => ?_
  obtain rfl : table = found := Except.ok.inj (hget.symm.trans hfound)
  have htargets : FindsColumn own (targetColumns table ⟨name, columns, groups⟩) := by
    cases columns with
    | none => exact .ok _
    | some names => exact findsColumn_resolveColumns hown names
  have harity (targets : List String) : FindsColumn own (checkArity targets groups) := by
    unfold checkArity
    split
    · nofun
    · exact .ok ()
  refine FindsColumn.map (htargets.bind fun targets _ => ?_) _
  refine (harity targets).bind fun _ _ => .mapM fun group _ => ?_
  exact FindsColumn.map (.mapM fun e _ => Expr.findsColumn_evalOperand .empty e) _

/-- An UPDATE does not fail for want of a column that its table has. -/
theorem findsColumn_update (hfind : catalog.find? name = some table)
    (hown : table.hasColumn own = true) (written : List (String × Expr))
    (filter : Option Condition) :
    FindsColumn own ((update ⟨name, written, filter⟩).result catalog) := by
  have hget := Catalog.get_eq_ok.2 hfind
  rw [update_result]
  refine (catalog.findsColumn_get name).bind fun found hfound => ?_
  obtain rfl : table = found := Except.ok.inj (hget.symm.trans hfound)
  have hassignments : FindsColumn own (resolveAssignments table written) :=
    (findsColumn_resolveColumns hown _).map _
  refine FindsColumn.map (hassignments.bind fun assignments _ => .mapM fun row _ => ?_) _
  refine (Condition.findsColumn_clauseHolds filter _).bind fun holds _ => ?_
  split
  · exact FindsColumn.map (.mapM fun assignment _ => Expr.findsColumn_evalOperand _ _) _
  · exact .ok none

theorem findsColumn_delete (catalog : Catalog) (name : String) (filter : Option Condition) :
    FindsColumn own ((delete ⟨name, filter⟩).result catalog) := by
  rw [delete_result]
  refine (catalog.findsColumn_get name).bind fun table _ => ?_
  refine FindsColumn.map (.mapM fun row _ => ?_) _
  exact Condition.findsColumn_clauseHolds filter _

end Failures

end Change
end SqlEngine
