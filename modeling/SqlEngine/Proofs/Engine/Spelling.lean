import SqlEngine.Proofs.Catalog.Writing
import SqlEngine.Proofs.Engine.Run
import SqlEngine.Proofs.Grammar.InsertReads
import SqlEngine.Proofs.Query.Respelling

/-!
# A column answers to its name

A table keeps the names of its columns in small letters, whatever alphabet they are from. The names
in the column list of an INSERT and in the assignments of an UPDATE are put in small letters alike,
so there every spelling with the small form of a column reaches it. Everywhere else a name keeps its
spelling and is looked for without regard to the case of ASCII letters alone: there a spelling
reaches the column when it differs from the kept name in nothing else.
-/
namespace SqlEngine

open Engine (Command)

variable {table : Table} {i : Nat} {column : Column}

/-- Under a spelling, INSERT and UPDATE find a column of a table and write to it. -/
structure Table.WrittenAs (catalog : Catalog) (name : String) (table : Table) (i : Nat)
    (column : Column) (spelling : String) : Prop where
  /-- In column lists and in assignments the spelling is read in small letters. -/
  read : ∀ (t : Token) (rest : List Token), t.name? = some spelling →
    Grammar.Reads Grammar.Reader.name (t :: rest) (Text.lower spelling) rest
  insert_finds : ∀ (columns : Option (List String)) (groups : List (List Expr)),
    FindsColumn (Text.lower spelling) ((Change.insert ⟨name, columns, groups⟩).result catalog)
  insert_writes : ∀ (names : List String) (groups : List (List Expr)) (count : Nat)
    (after : Catalog) (j : Nat),
    (Change.insert ⟨name, some names, groups⟩).result catalog = .ok (count, after) →
    names[j]? = some (Text.lower spelling) →
    (∀ k other, names[k]? = some other → Text.sameName column.name other = true → k = j) →
    ∃ changed added, after.find? name = some changed ∧ changed.rows = table.rows ++ added ∧
      List.Forall₂ (fun group row => ∃ e v, group[j]? = some e ∧ e.evalOperand .empty = .ok v ∧
        (v.isNull = false ∨ column.isAutoIncrement = false → row.values[i]? = some v))
          groups added
  update_finds : ∀ (assignments : List (String × Expr)) (filter : Option Condition),
    FindsColumn (Text.lower spelling) ((Change.update ⟨name, assignments, filter⟩).result catalog)
  update_writes : ∀ (assignments : List (String × Expr)) (filter : Option Condition) (count : Nat)
    (after : Catalog) (j : Nat) (e : Expr),
    (Change.update ⟨name, assignments, filter⟩).result catalog = .ok (count, after) →
    assignments[j]? = some (Text.lower spelling, e) →
    (∀ k other, assignments[k]? = some other → Text.sameName column.name other.1 = true →
      k = j) →
    ∃ changed, after.find? name = some changed ∧ List.Forall₂ (fun row new =>
      (Condition.selects filter row = true →
        ∃ v, e.evalOperand (.row row) = .ok v ∧ new.values[i]? = some v) ∧
      (Condition.selects filter row = false → new = row)) table.rows changed.rows

/-- Under a spelling, queries, conditions and primary keys find a column of a table and read it. -/
structure Table.ReadAs (catalog : Catalog) (name : String) (table : Table) (i : Nat)
    (column : Column) (spelling : String) (same : Text.sameName column.name spelling = true) :
    Prop where
  /-- Expressions read the cell in the place of the column, and so do GROUP BY and joins, which look
  for names in rows directly. -/
  cell : ∀ row ∈ table.rows, ∃ v, row.values[i]? = some v ∧ row.get? spelling = some v ∧
    ∀ qualifier?, (Expr.column ⟨qualifier?, spelling⟩).eval (.row row) = .ok v
  select_finds : ∀ (semantics : JoinSemantics) (s : Select),
    name ∈ s.source.name :: s.joins.map (·.table.name) →
    FindsColumn spelling (Query.select semantics catalog s)
  update_finds : ∀ (assignments : List (String × Expr)) (filter : Option Condition),
    FindsColumn spelling ((Change.update ⟨name, assignments, filter⟩).result catalog)
  delete_finds : ∀ filter : Option Condition,
    FindsColumn spelling ((Change.delete ⟨name, filter⟩).result catalog)
  /-- In all clauses of a SELECT the spelling stands for the name that the table keeps. -/
  select_alike : ∀ (semantics : JoinSemantics) (s : Select) (answer : Listing),
    Query.select semantics catalog (s.respelled (.between same)) = .ok answer ↔
      Query.select semantics catalog s = .ok answer
  condition_alike : ∀ (c : Condition) (scope : Scope),
    (c.respelled (.between same)).holds scope = c.holds scope
  /-- A table with columns of these names may have the column in its primary key. -/
  key : ∀ (columns : List Column) (names : List String),
    columns.map (·.name) = table.columnNames → spelling ∈ names →
    Grammar.markKeys columns names ≠ .error (.schema (.unknownColumn spelling)) ∧
      ∀ marked, Grammar.markKeys columns names = .ok marked →
        ∃ c, marked[i]? = some c ∧ c.name = column.name ∧ c.primaryKey = true

variable {catalog : Catalog} {name spelling : String}

/-- Every spelling with the small form of a column reaches it in INSERT and UPDATE. -/
theorem Catalog.WellFormed.writtenAs (h : catalog.WellFormed)
    (hfind : catalog.find? name = some table) (hcolumn : table.columns[i]? = some column)
    (hspelling : Text.lower spelling = column.name) :
    table.WrittenAs catalog name i column spelling := by
  have hw := h.of_get (get_eq_ok.2 hfind)
  have hsame : Text.sameName column.name (Text.lower spelling) = true := by
    rw [hspelling]
    exact Text.sameName_refl _
  have hhas : table.hasColumn (Text.lower spelling) = true := by
    rw [Table.hasColumn, hw.column?_eq hcolumn hsame]
    rfl
  constructor
  · exact fun t rest ht => Grammar.reads_name ht rest
  · exact Change.findsColumn_insert hfind hhas
  · intro names groups count after j ok hj honce
    exact Change.insert_writes h hfind hcolumn ok hj hsame honce
  · exact Change.findsColumn_update hfind hhas
  · intro assignments filter count after j e ok hj honce
    exact Change.update_writes h hfind hcolumn ok hj hsame honce

/-- A spelling of a column without regard to the case of ASCII letters reads the cell in the place
of the column, from every row of the table. -/
theorem Table.WellFormed.exists_cell (h : table.WellFormed)
    (hcolumn : table.columns[i]? = some column)
    (same : Text.sameName column.name spelling = true) {row : Row} (hrow : row ∈ table.rows) :
    ∃ v, row.values[i]? = some v ∧ row.get? spelling = some v ∧
      ∀ qualifier?, (Expr.column ⟨qualifier?, spelling⟩).eval (.row row) = .ok v := by
  have hnames := h.rows_shaped row hrow
  have hcontains : (row.get? column.name).isSome = true := by
    rw [Row.isSome_get?]
    apply Row.contains_of_mem_names
    rw [hnames]
    exact List.mem_map_of_mem (List.mem_of_getElem? hcolumn)
  obtain ⟨v, hv⟩ := Option.isSome_iff_exists.1 hcontains
  have hread : row.get? spelling = some v := (row.get?_congr same).symm.trans hv
  refine ⟨v, ?_, hread, fun qualifier? => ?_⟩
  · rw [h.values_getElem? hcolumn hnames, Row.getD, hv]
    rfl
  · rw [Expr.eval, Scope.column?, hread]
    rfl

/-- A PRIMARY KEY clause with a spelling of a column, without regard to the case of ASCII letters,
does not miss the column, and marks it. -/
theorem Table.WellFormed.markKeys (h : table.WellFormed)
    (hcolumn : table.columns[i]? = some column)
    (same : Text.sameName column.name spelling = true) {columns : List Column}
    {names : List String} (hnames : columns.map (·.name) = table.columnNames)
    (hmem : spelling ∈ names) :
    Grammar.markKeys columns names ≠ .error (.schema (.unknownColumn spelling)) ∧
      ∀ marked, Grammar.markKeys columns names = .ok marked →
        ∃ c, marked[i]? = some c ∧ c.name = column.name ∧ c.primaryKey = true := by
  have hplace : (columns.map (·.name))[i]? = some column.name := by
    rw [hnames, Table.columnNames, List.getElem?_map, hcolumn]
    rfl
  refine ⟨Grammar.markKeys_ne_unknown ⟨_, List.mem_of_getElem? hplace, same⟩ names, ?_⟩
  intro marked hmarked
  rw [List.getElem?_map] at hplace
  obtain ⟨c, hc, hname⟩ := Option.map_eq_some_iff.1 hplace
  have hkey : names.any (Text.sameName c.name) = true :=
    List.any_eq_true.2 ⟨spelling, hmem, hname ▸ same⟩
  rw [Grammar.markKeys_eq_map (hnames ▸ h.columns_distinct) hmarked]
  let keyed : Column :=
    { c with primaryKey := c.primaryKey || names.any (Text.sameName c.name) }
  have hkeyed : keyed.primaryKey = true := by
    dsimp only [keyed]
    rw [hkey, Bool.or_true]
  refine ⟨keyed, ?_, hname, hkeyed⟩
  rw [List.getElem?_map, hc]
  rfl

/-- A spelling that differs from the name of a column in the case of ASCII letters alone reaches it
wherever columns are read. -/
theorem Catalog.WellFormed.readAs (h : catalog.WellFormed)
    (hfind : catalog.find? name = some table) (hcolumn : table.columns[i]? = some column)
    (same : Text.sameName column.name spelling = true) :
    table.ReadAs catalog name i column spelling same := by
  have hw := h.of_get (get_eq_ok.2 hfind)
  have hhas : table.hasColumn spelling = true := by
    rw [Table.hasColumn, hw.column?_eq hcolumn same]
    rfl
  constructor
  · exact fun row hrow => hw.exists_cell hcolumn same hrow
  · exact fun semantics s hreads => Query.findsColumn_select hfind hhas semantics hreads
  · exact Change.findsColumn_update hfind hhas
  · exact fun filter => Change.findsColumn_delete catalog name filter
  · exact fun semantics s answer => Query.select_respelled _
  · exact fun c scope => Condition.holds_respelled _ scope c
  · exact fun columns names hnames hmem => hw.markKeys hcolumn same hnames hmem

namespace Engine

/-- Whatever scripts an engine has run: a column that was given the name `own` keeps its small form
`column.name`. Every spelling with the same small form finds the column in the column list of an
INSERT and in the assignments of an UPDATE, and what is written goes into its cells. A spelling that
differs from the kept name in the case of ASCII letters alone finds it in every clause of a SELECT,
in every condition and in a primary key, and what is read are its cells. -/
theorem column_answers_to_its_name (settings : Settings) (commands : List Command)
    {name : String} {table : Table} {i : Nat} {column : Column} {own spelling : String} :
    let catalog := ((Engine.start settings).run commands).catalog
    catalog.find? name = some table → table.columns[i]? = some column →
    column.name = Text.lower own → Text.lower spelling = Text.lower own →
    table.WrittenAs catalog name i column spelling ∧
      ∀ same : Text.sameName column.name spelling = true,
        table.ReadAs catalog name i column spelling same := by
  intro catalog hfind hcolumn hown hspelling
  have hw : catalog.WellFormed := run_wellFormed settings commands
  constructor
  · exact hw.writtenAs hfind hcolumn (hspelling.trans hown.symm)
  · exact fun same => hw.readAs hfind hcolumn same

/-- A capital ASCII letter reaches the column of the small letter: the cell is read. -/
theorem column_answers_to_capital :
    let commands : List Command := [.script "CREATE TABLE t(v);INSERT INTO t VALUES('x')"]
    let catalog := ((Engine.start .standard).run commands).catalog
    let s : Select := ⟨false, [.expr (.column ⟨none, "V"⟩) none "V"], ⟨"t", none⟩, [], none, none,
      none, [], none, none⟩
    ∃ table column row, catalog.find? "t" = some table ∧ table.columns[0]? = some column ∧
      column.name = Text.lower "V" ∧ Text.sameName column.name "V" = true ∧ row ∈ table.rows ∧
      (Expr.column ⟨none, "V"⟩).eval (.row row) = .ok (.text "x") ∧
      FindsColumn "V" (Query.select .standard catalog s) := by
  intro commands catalog s
  let column := Column.plain "v" "TEXT"
  let row : Row := ⟨[("v", .text "x")]⟩
  let table : Table := ⟨"t", [column], [row], []⟩
  have hcatalog : catalog = ⟨[("t", table)], ["t"]⟩ := by decide +kernel
  have hfind : catalog.find? "t" = some table := by
    rw [hcatalog]
    decide +kernel
  have hname : column.name = Text.lower "V" := by decide +kernel
  have hcolumn : column.name = "v" := by decide +kernel
  have hsame : Text.sameName column.name "V" = true := by
    rw [hcolumn, Text.sameName_iff]
    apply String.toList_inj.1
    rw [Text.upperAscii, Text.upperAscii, String.toList_map, String.toList_map]
    decide
  obtain ⟨-, hread⟩ := @column_answers_to_its_name .standard commands "t" table 0 column "V" "V"
    hfind rfl hname rfl
  obtain ⟨v, hv, -, heval⟩ := (hread hsame).cell row List.mem_cons_self
  cases hv
  exact ⟨table, column, row, hfind, rfl, hname, hsame, List.mem_cons_self, heval none,
    (hread hsame).select_finds .standard s List.mem_cons_self⟩

/-- An accented capital letter does not reach the column that was created under it: the select list
misses the column, and a condition reads a missing value in its place. -/
theorem accented_capital_not_found :
    let engine := ((Engine.start .standard).execute
      "CREATE TABLE t(É);INSERT INTO t VALUES('x')").2
    let row : Row := ⟨[("é", .text "x")]⟩
    let s : Select := ⟨false, [.expr (.column ⟨none, "É"⟩) none "É"], ⟨"t", none⟩, [], none, none,
      none, [], none, none⟩
    Text.lower "É" = "é" ∧
      (engine.catalog.find? "t").map (fun table => (table.columnNames, table.rows)) =
        some (["é"], [row]) ∧
      Query.select .standard engine.catalog s = .error (.unknownColumn "É") ∧
      (Expr.column ⟨none, "É"⟩).eval (.row row) = .ok .null := by
  intro engine row s
  let table : Table := ⟨"t", [.plain "É" "TEXT"], [row], []⟩
  have hcatalog : engine.catalog = ⟨[("t", table)], ["t"]⟩ := by decide +kernel
  have hlower : Text.lower "É" = "é" := by decide +kernel
  have hdiffer : Text.sameName "é" "É" = false := by
    rw [← Bool.not_eq_true, Text.sameName_iff, Text.upperAscii, Text.upperAscii,
      ← String.toList_inj, String.toList_map, String.toList_map]
    decide
  have hfind : engine.catalog.find? "t" = some table := by
    rw [hcatalog]
    decide +kernel
  have hmissing : table.hasColumn "É" = false := by
    simp [Table.hasColumn, Table.column?, table, Column.plain, hlower, hdiffer]
  have hsources : Query.sources engine.catalog s = .ok (table, []) :=
    bind_of_ok (Catalog.get_eq_ok.2 hfind) _
  have hchecked : Query.checkColumns [table] s = .error (.unknownColumn "É") := by
    simp [Query.checkColumns, Query.namedColumns, s, Expr.columnRefs, hmissing]
  refine ⟨hlower, ?_, ?_, ?_⟩
  · rw [hfind]
    simp [table, Table.columnNames, Column.plain, hlower]
  · rw [Query.select_eq]
    refine (bind_of_ok hsources _).trans ?_
    change Query.checkColumns [table] s >>= _ = _
    rw [hchecked]
    rfl
  · simp [Expr.eval, Scope.column?, Row.get?, row, hdiffer]

end Engine
end SqlEngine
