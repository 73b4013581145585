import SqlEngine.Proofs.Engine.Run
import SqlEngine.Proofs.Join.Columns
import SqlEngine.Proofs.Query.Stages

/-!
# Columns of an answer

An answer is headed by the names of its first row, so it is faithful only if all of its rows have
the same names. They have, because names never depend on cells: the rows of a chain of joins have
the columns of all its tables, each name once, and a result row has the names that the select list
gives to rows with these columns.
-/
namespace SqlEngine.Query

/-- The columns of some tables side by side, without those that are the same as an earlier one. -/
def columnsOf (tables : List Table) : List String :=
  Row.firstNames (tables.flatMap Table.columnNames)

/-- The names that an item of a select list gives to a result row, made of a row with the given
names or of no row. -/
def ListItem.outputNames (source : Option (List String)) : ListItem → List String
  | .star => source.getD []
  | .columns names => if source.isSome then names else []
  | .expr name _ => [name]

/-- The names of a result row. -/
def header (source : Option (List String)) (items : List ListItem) : List String :=
  Row.firstNames (items.flatMap (·.outputNames source))

section Joins

variable {semantics : JoinSemantics}

/-- One more table is joined to some rows, which have the given columns. -/
def joinStep (semantics : JoinSemantics) (state : List Row × List String)
    (step : JoinClause × Table) : List Row × List String :=
  (Join.joinRows semantics state.1 state.2 step.2 step.1, Join.joinColumns state.2 step.2)

/-- All rows have exactly the given columns, which are distinct. -/
def Shaped (state : List Row × List String) : Prop :=
  Row.DistinctNames state.2 ∧ ∀ row ∈ state.1, row.names = state.2

theorem Shaped.joinStep {state : List Row × List String} (h : Shaped state) {clause : JoinClause}
    {table : Table} (hw : table.WellFormed) : Shaped (joinStep semantics state (clause, table)) :=
  ⟨Row.addNames_distinct h.1 table.columnNames, Join.names_joinRows h.1 h.2 hw.rows_shaped⟩

theorem Shaped.joins {state : List Row × List String} (h : Shaped state)
    {joined : List (JoinClause × Table)} (hw : ∀ step ∈ joined, step.2.WellFormed) :
    Shaped (joined.foldl (Query.joinStep semantics) state) := by
  induction joined generalizing state with
  | nil => exact h
  | cons step rest ih =>
    have hfirst : Shaped (Query.joinStep semantics state step) :=
      h.joinStep (hw step List.mem_cons_self)
    exact ih hfirst fun other hother => hw other (List.mem_cons_of_mem step hother)

theorem snd_foldl_joinStep (joined : List (JoinClause × Table)) (state : List Row × List String) :
    (joined.foldl (joinStep semantics) state).2 =
      Row.addNames state.2 ((joined.map (·.2)).flatMap Table.columnNames) := by
  induction joined generalizing state with
  | nil => rfl
  | cons step rest ih =>
    rw [List.foldl_cons, ih, List.map_cons, List.flatMap_cons, Row.addNames_append]
    rfl

/-- The last join of a chain is carried out on what the ones before it leave. -/
theorem joinedRows_concat (base : Table) (joined : List (JoinClause × Table))
    (step : JoinClause × Table) :
    joinedRows semantics base (joined ++ [step]) =
      joinStep semantics (joinedRows semantics base joined) step :=
  List.foldl_concat ..

/-- After any chain of joins all rows have the columns of the tables, each name once. -/
theorem names_joinedRows {base : Table} {joined : List (JoinClause × Table)}
    (hbase : base.WellFormed) (hjoined : ∀ step ∈ joined, step.2.WellFormed) :
    (joinedRows semantics base joined).2 = columnsOf (base :: joined.map (·.2)) ∧
      ∀ row ∈ (joinedRows semantics base joined).1,
        row.names = columnsOf (base :: joined.map (·.2)) := by
  have hstart : Shaped (base.rows, base.columnNames) := ⟨hbase.columns_distinct, hbase.rows_shaped⟩
  have hshaped : Shaped (joinedRows semantics base joined) := hstart.joins hjoined
  have hcolumns : (joinedRows semantics base joined).2 = columnsOf (base :: joined.map (·.2)) := by
    have hfold : (joinedRows semantics base joined).2 = Row.addNames base.columnNames
        ((joined.map (·.2)).flatMap Table.columnNames) := snd_foldl_joinStep joined _
    have hfirst : base.columnNames = Row.addNames [] base.columnNames := by
      rw [Row.addNames_nil, Row.firstNames_of_distinct hbase.columns_distinct]
    rw [columnsOf, ← Row.addNames_nil, List.flatMap_cons, Row.addNames_append, ← hfirst]
    exact hfold
  refine ⟨hcolumns, ?_⟩
  intro row hrow
  rw [hshaped.2 row hrow, hcolumns]

end Joins

section Projection

/-- Which names an item adds to a result row is settled by the names of the source row. -/
theorem names_addItem {scope : Scope} {source : Option Row} {row result : Row} {item : ListItem}
    (h : addItem scope source row item = .ok result) :
    result.names = Row.addNames row.names (item.outputNames (source.map Row.names)) := by
  cases item with
  | star =>
    cases h
    cases source with
    | none => rfl
    | some origin => exact Row.names_merge row origin
  | columns names =>
    cases h
    cases source with
    | none => rfl
    | some origin =>
      have hfields : (names.map fun n => (n, origin.getD n)).map (·.1) = names := by
        rw [List.map_map]
        exact List.map_id names
      have hnames := Row.names_setAll row (names.map fun n => (n, origin.getD n))
      rw [hfields] at hnames
      exact hnames
  | expr name e =>
    obtain ⟨value, -, h⟩ := bind_eq_ok.1 h
    cases h
    exact Row.names_set_eq_addName row name value

theorem names_foldlM_addItem {scope : Scope} {source : Option Row} {items : List ListItem}
    {row result : Row} (h : items.foldlM (addItem scope source) row = .ok result) :
    result.names =
      Row.addNames row.names (items.flatMap (·.outputNames (source.map Row.names))) := by
  induction items generalizing row with
  | nil =>
    cases h
    rfl
  | cons item rest ih =>
    rw [List.foldlM_cons] at h
    obtain ⟨next, hnext, hrest⟩ := bind_eq_ok.1 h
    rw [ih hrest, names_addItem hnext, List.flatMap_cons, Row.addNames_append]

theorem names_project {items : List ListItem} {scope : Scope} {source : Option Row} {result : Row}
    (h : project items scope source = .ok result) :
    result.names = header (source.map Row.names) items := by
  rw [header, ← Row.addNames_nil]
  exact names_foldlM_addItem h

variable {s : Select} {items : List ListItem} {rows : List Row} {columns : List String}
  (hrows : ∀ row ∈ rows, row.names = columns)
include hrows

theorem head?_map_names {row : Row} (h : row ∈ rows) :
    rows.head?.map Row.names = some columns := by
  cases rows with
  | nil => cases h
  | cons first rest =>
    have hfirst := hrows first List.mem_cons_self
    rw [List.head?_cons, Option.map_some, hfirst]

theorem names_projectRows {output : List Projected} (h : projectRows s items rows = .ok output) :
    ∀ p ∈ output, p.row.names = header (rows.head?.map Row.names) items := by
  intro p hp
  obtain ⟨source, hsource, hmade⟩ := exists_of_mem_mapM h hp
  obtain ⟨row, hrow, hmade⟩ := bind_eq_ok.1 hmade
  obtain ⟨keys, -, hmade⟩ := bind_eq_ok.1 hmade
  cases hmade
  have hnames := names_project hrow
  rw [Option.map_some, hrows source hsource] at hnames
  rw [head?_map_names hrows hsource]
  exact hnames

theorem names_projectGroup {group : List Row} {p : Projected}
    (hgroup : (rows = [] ∧ group = []) ∨ ∃ first ∈ rows, group.head? = some first)
    (h : projectGroup s items group = .ok (some p)) :
    p.row.names = header (rows.head?.map Row.names) items := by
  obtain ⟨row, hrow, h⟩ := bind_eq_ok.1 h
  obtain ⟨kept, -, h⟩ := bind_eq_ok.1 h
  have hnames := names_project hrow
  have hp : p.row = row := by
    cases kept with
    | false => cases h
    | true =>
      obtain ⟨keys, -, h⟩ := bind_eq_ok.1 h
      cases h
      rfl
  rw [hp, hnames]
  rcases hgroup with ⟨rfl, rfl⟩ | ⟨first, hfirst, hhead⟩
  · rfl
  · rw [hhead, head?_map_names hrows hfirst, Option.map_some, hrows first hfirst]

theorem names_projectGroups {output : List Projected}
    (h : projectGroups s items rows = .ok output) :
    ∀ p ∈ output, p.row.names = header (rows.head?.map Row.names) items := by
  intro p hp
  obtain ⟨made, hmade, h⟩ := bind_eq_ok.1 h
  cases h
  obtain ⟨found, hfound, hp⟩ := List.mem_filterMap.1 hp
  obtain rfl : found = some p := hp
  obtain ⟨group, hgroup, hproject⟩ := exists_of_mem_mapM hmade hfound
  exact names_projectGroup hrows (head?_of_mem_partition hgroup) hproject

/-- Every result row has the names that the select list gives to rows with these columns. -/
theorem names_outputRows {output : List Projected} (h : outputRows s items rows = .ok output) :
    ∀ p ∈ output, p.row.names = header (rows.head?.map Row.names) items := by
  rw [outputRows] at h
  split at h
  · exact names_projectGroups hrows h
  · exact names_projectRows hrows h

end Projection

/-- Rows that all have the same names are listed cell by cell. -/
theorem listing_of_names {rows : List Row} {names : List String}
    (hdistinct : Row.DistinctNames names) (h : ∀ row ∈ rows, row.names = names) :
    (listing rows).rows = rows.map Row.values ∧
      ∀ row ∈ rows, row.names = (listing rows).columns := by
  cases rows with
  | nil => simp [listing]
  | cons first rest =>
    have hcolumns : (listing (first :: rest)).columns = names := h first List.mem_cons_self
    refine ⟨?_, ?_⟩
    · apply List.map_congr_left
      intro row hrow
      have hrow := h row hrow
      have hread : row.names.map row.getD = row.values :=
        Row.map_getD_names (by rw [hrow]; exact hdistinct)
      rw [hrow, ← hcolumns] at hread
      exact hread
    · intro row hrow
      rw [h row hrow, hcolumns]

/-- The tables of a query are tables of the catalog. -/
theorem wellFormed_sources {catalog : Catalog} (hw : catalog.WellFormed) {s : Select} {base : Table}
    {joined : List (JoinClause × Table)} (h : sources catalog s = .ok (base, joined)) :
    base.WellFormed ∧ ∀ step ∈ joined, step.2.WellFormed := by
  obtain ⟨found, hfound, h⟩ := bind_eq_ok.1 h
  obtain ⟨steps, hsteps, h⟩ := bind_eq_ok.1 h
  cases h
  refine ⟨hw.of_get hfound, ?_⟩
  intro step hstep
  obtain ⟨clause, -, hclause⟩ := exists_of_mem_mapM hsteps hstep
  obtain ⟨table, htable, hclause⟩ := bind_eq_ok.1 hclause
  cases hclause
  exact hw.of_get htable

/-- All result rows of a query have the names that its select list gives to the joined rows. -/
theorem Stages.names_output {semantics : JoinSemantics} {catalog : Catalog} {s : Select}
    (hw : catalog.WellFormed) (q : Stages semantics catalog s) :
    ∀ p ∈ q.output, p.row.names = header (q.rows.head?.map Row.names) q.items := by
  obtain ⟨hbase, hjoined⟩ := wellFormed_sources hw q.sources_eq
  have hrows : ∀ row ∈ q.rows, row.names = columnsOf (q.base :: q.joined.map (·.2)) := by
    intro row hrow
    exact (names_joinedRows hbase hjoined).2 row ((filterRows_sublist q.rows_eq).subset hrow)
  exact names_outputRows hrows q.output_eq

/-- What is shown of a query is listed cell by cell, under the names of each row. -/
theorem Stages.listing_shown {semantics : JoinSemantics} {catalog : Catalog} {s : Select}
    (hw : catalog.WellFormed) (q : Stages semantics catalog s) :
    (listing (q.shown.map (·.row))).rows = q.shown.map (·.row.values) ∧
      ∀ p ∈ q.shown, p.row.names = (listing (q.shown.map (·.row))).columns := by
  have hshown : ∀ row ∈ q.shown.map (·.row),
      row.names = header (q.rows.head?.map Row.names) q.items := by
    intro row hrow
    obtain ⟨p, hp, rfl⟩ := List.mem_map.1 hrow
    exact q.names_output hw p (Stages.mem_output hp)
  obtain ⟨hcells, hheader⟩ := listing_of_names (Row.firstNames_distinct _) hshown
  rw [List.map_map] at hcells
  exact ⟨hcells, fun p hp => hheader p.row (List.mem_map_of_mem hp)⟩

/-- On every catalog that scripts lead to, and for every SELECT that is answered: after each of its
joins the rows have the columns of the tables up to there, each name once; all result rows have one
and the same names; and the answer has exactly the cells of the rows that are shown, in their order,
under a header that is the names of each of them. -/
theorem select_rectangular (settings : Settings) (commands : List Engine.Command)
    (semantics : JoinSemantics) (s : Select) (answer : Listing)
    (h : select semantics ((Engine.start settings).run commands).catalog s = .ok answer) :
    ∃ q : Stages semantics ((Engine.start settings).run commands).catalog s,
      (∀ n, (joinedRows semantics q.base (q.joined.take n)).2 =
          columnsOf (q.base :: (q.joined.take n).map (·.2)) ∧
        ∀ row ∈ (joinedRows semantics q.base (q.joined.take n)).1,
          row.names = columnsOf (q.base :: (q.joined.take n).map (·.2))) ∧
      (∀ p ∈ q.output, p.row.names = header (q.rows.head?.map Row.names) q.items) ∧
      answer.rows = q.shown.map (·.row.values) ∧
      ∀ p ∈ q.shown, p.row.names = answer.columns := by
  have hw : ((Engine.start settings).run commands).catalog.WellFormed :=
    Engine.run_keeps Catalog.WellFormed.kept .empty (Engine.start settings) commands .empty
  obtain ⟨q, rfl⟩ := exists_stages h
  obtain ⟨hbase, hjoined⟩ := wellFormed_sources hw q.sources_eq
  have hparts : ∀ n, ∀ step ∈ q.joined.take n, step.2.WellFormed :=
    fun n step hstep => hjoined step (List.mem_of_mem_take hstep)
  obtain ⟨hcells, hheader⟩ := q.listing_shown hw
  exact ⟨q, fun n => names_joinedRows hbase (hparts n), q.names_output hw, hcells, hheader⟩

/-- Two tables share a column, and the row of the first one finds none in the second. -/
theorem select_rectangular_sharedColumn :
    let commands : List Engine.Command :=
      [.script "CREATE TABLE a(k,v);CREATE TABLE b(K,w);INSERT INTO a VALUES('x','y')"]
    let catalog := ((Engine.start .standard).run commands).catalog
    let clause : JoinClause := ⟨.left, ⟨"b", none⟩, [(⟨some "a", "k"⟩, ⟨some "b", "k"⟩)]⟩
    let s : Select :=
      ⟨false, [.starOf "b", .star], ⟨"a", none⟩, [clause], none, none, none, [], none, none⟩
    ∃ (answer : Listing) (q : Stages .standard catalog s),
      select .standard catalog s = .ok answer ∧ answer.columns = ["k", "w", "v"] ∧
      answer.rows = [[.text "x", .null, .text "y"]] ∧
      answer.rows = q.shown.map (·.row.values) ∧ ∀ p ∈ q.shown, p.row.names = answer.columns := by
  intro commands catalog clause s
  have hcatalog : catalog =
      { entries :=
          [("b", ⟨"b", [.plain "k" "TEXT", .plain "w" "TEXT"], [], []⟩),
            ("a", ⟨"a", [.plain "k" "TEXT", .plain "v" "TEXT"],
              [⟨[("k", .text "x"), ("v", .text "y")]⟩], []⟩)],
        order := ["a", "b"] } := by
    decide +kernel
  have hanswer : (select .standard catalog s).toOption.map (fun l => (l.columns, l.rows)) =
      some (["k", "w", "v"], [[.text "x", .null, .text "y"]]) := by
    rw [hcatalog]
    decide +kernel
  cases h : select .standard catalog s with
  | error e =>
    rw [h] at hanswer
    cases hanswer
  | ok answer =>
    rw [h] at hanswer
    obtain ⟨hcolumns, hrows⟩ := Prod.mk.inj (Option.some.inj hanswer)
    obtain ⟨q, -, -, hcells, hheader⟩ :=
      select_rectangular .standard commands .standard s answer h
    exact ⟨answer, q, rfl, hcolumns, hrows, hcells, hheader⟩

end SqlEngine.Query
