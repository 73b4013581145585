import SqlEngine.Proofs.Expr.Absent
import SqlEngine.Proofs.Query.Columns

/-!
# Named columns

The columns that a select list and a GROUP BY clause name are looked for in the tables, once and
before any row is touched; later they are looked up in rows that joins have put together. A query
that is not refused finds all of them in every such row, so nothing is ever made of an absent
column when its select list is evaluated or its rows are grouped. Only for the group of no rows,
which an aggregate without GROUP BY makes, there is no row to look in. A query that is refused is
refused for the first of its columns that no table has.
-/
namespace SqlEngine.Query

/-- A name that finds a column of one of the tables is found in rows with the columns of all. -/
theorem isSome_get?_of_hasColumn {tables : List Table} {row : Row}
    (hnames : row.names = columnsOf tables) {table : Table} (htable : table ∈ tables)
    {name : String} (h : table.hasColumn name = true) : (row.get? name).isSome = true := by
  obtain ⟨column, hcolumn⟩ := Option.isSome_iff_exists.1 h
  have hlisted : column.name ∈ tables.flatMap Table.columnNames :=
    List.mem_flatMap.2 ⟨table, htable, Table.column?_mem hcolumn⟩
  obtain ⟨first, hfirst, hsame⟩ := Row.exists_mem_firstNames hlisted
  rw [Row.isSome_get?, Row.contains_eq_any, hnames, List.any_eq_true]
  exact ⟨first, hfirst, Text.sameName_trans hsame (Table.sameName_of_column? hcolumn)⟩

theorem mem_namedColumns_of_item {s : Select} {e : Expr} {alias? : Option String} {text : String}
    (hitem : .expr e alias? text ∈ s.items) {ref : ColumnRef} (href : ref ∈ e.columnRefs) :
    ref ∈ namedColumns s :=
  List.mem_append_left _ (List.mem_flatMap.2 ⟨_, hitem, href⟩)

theorem mem_namedColumns_of_groupBy {s : Select} {ref : ColumnRef} (h : ref ∈ s.groupBy.getD []) :
    ref ∈ namedColumns s :=
  List.mem_append_right _ h

/-- The rows of a query have every column that it names. Nothing is made of an absent column when
its select list is evaluated, in a row or in a group of rows, and the rows are grouped by values
that they have. -/
structure ColumnsPresent (s : Select) (rows : List Row) : Prop where
  named : ∀ ref ∈ namedColumns s, ∀ row ∈ rows, (row.get? ref.name).isSome = true
  rowwise : ∀ e alias? text, .expr e alias? text ∈ s.items → ∀ row ∈ rows,
    ∀ absent, e.evalOr absent (.row row) = e.eval (.row row)
  grouped : ∀ e alias? text, .expr e alias? text ∈ s.items →
    ∀ group ∈ partition ((s.groupBy.getD []).map (·.name)) rows, group ≠ [] →
      ∀ absent, e.evalOr absent (.group group .empty) = e.eval (.group group .empty)
  group_of_none : ∀ group ∈ partition ((s.groupBy.getD []).map (·.name)) rows, group = [] →
    rows = [] ∧ s.groupBy.getD [] = []
  keyed : ∀ row ∈ rows, ∃ values : List Value,
    (s.groupBy.getD []).map (fun ref => row.get? ref.name) = values.map some ∧
      row.groupKey ((s.groupBy.getD []).map (·.name)) = values.map Value.groupKey

/-- Present columns are in every scope in which the select list is evaluated. -/
theorem columnsPresent_of_named {s : Select} {rows : List Row}
    (h : ∀ ref ∈ namedColumns s, ∀ row ∈ rows, (row.get? ref.name).isSome = true) :
    ColumnsPresent s rows where
  named := h
  rowwise e alias? text hitem row hrow absent :=
    Expr.evalOr_of_has fun ref href => h ref (mem_namedColumns_of_item hitem href) row hrow
  grouped e alias? text hitem group hgroup hne absent := by
    refine Expr.evalOr_of_has fun ref href => ?_
    have hrows : ∀ row ∈ group, (row.get? ref.name).isSome = true := fun row hrow =>
      h ref (mem_namedColumns_of_item hitem href) row (mem_of_mem_partition hgroup hrow)
    obtain ⟨first, rest, rfl⟩ := List.exists_cons_of_ne_nil hne
    exact ⟨hrows first List.mem_cons_self, hrows⟩
  group_of_none group hgroup hnil := by
    obtain ⟨hrows, -⟩ | ⟨first, -, hhead⟩ := head?_of_mem_partition hgroup
    · refine ⟨hrows, ?_⟩
      by_contra hcolumns
      -- columns to group by make no groups of no rows
      rw [partition, partitionOn, if_neg (by simpa using hcolumns), hrows] at hgroup
      cases hgroup
    · rw [hnil] at hhead
      cases hhead
  keyed row hrow := by
    refine ⟨(s.groupBy.getD []).map fun ref => row.getD ref.name, ?_, ?_⟩
    · rw [List.map_map]
      refine List.map_congr_left fun ref href => ?_
      have hthere := h ref (mem_namedColumns_of_groupBy href) row hrow
      obtain ⟨v, hv⟩ := Option.isSome_iff_exists.1 hthere
      simp [Row.getD, hv]
    · rw [Row.groupKey, List.map_map, List.map_map]
      rfl

/-- The rows of a query that is not refused have the columns that it names. -/
theorem columnsPresent {catalog : Catalog} (hw : catalog.WellFormed) {semantics : JoinSemantics}
    {s : Select} {base : Table} {joined : List (JoinClause × Table)} {rows : List Row}
    (hsources : sources catalog s = .ok (base, joined))
    (hchecked : checkColumns (base :: joined.map (·.2)) s = .ok ())
    (hrows : filterRows s.filter (joinedRows semantics base joined).1 = .ok rows) :
    ColumnsPresent s rows := by
  obtain ⟨hbase, hjoined⟩ := wellFormed_sources hw hsources
  refine columnsPresent_of_named fun ref href row hrow => ?_
  obtain ⟨table, htable, hcolumn⟩ := checkColumns_eq_ok.1 hchecked ref href
  have hnames := (names_joinedRows hbase hjoined).2 row ((filterRows_sublist hrows).subset hrow)
  exact isSome_get?_of_hasColumn hnames htable hcolumn

/-- A query that names a column of no table is refused for the first such column, whatever is in the
tables. -/
theorem exists_refused {catalog : Catalog} {s : Select} {base : Table}
    {joined : List (JoinClause × Table)} (hsources : sources catalog s = .ok (base, joined))
    {ref : ColumnRef} (href : ref ∈ namedColumns s)
    (hnone : ∀ table ∈ base :: joined.map (·.2), table.hasColumn ref.name = false)
    (semantics : JoinSemantics) :
    ∃ front first behind, namedColumns s = front ++ first :: behind ∧
      (∀ known ∈ front, ∃ table ∈ base :: joined.map (·.2), table.hasColumn known.name = true) ∧
      (∀ table ∈ base :: joined.map (·.2), table.hasColumn first.name = false) ∧
      select semantics catalog s = .error (.unknownColumn first.name) := by
  rcases checkColumns_cases (base :: joined.map (·.2)) s with
    hok | ⟨front, first, behind, hsplit, hfront, hfirst, hrefused⟩
  · obtain ⟨table, htable, hcolumn⟩ := checkColumns_eq_ok.1 hok ref href
    rw [hnone table htable] at hcolumn
    cases hcolumn
  · refine ⟨front, first, behind, hsplit, hfront, hfirst, ?_⟩
    rw [select_eq]
    refine (bind_of_ok hsources _).trans ?_
    dsimp only
    rw [hrefused]
    rfl

/-- On every catalog that scripts lead to, the rows of a query whose columns were checked have all
the columns that it names, and an absent column plays no part in what is made of them. On any
catalog, a query that names a column of none of its tables fails for the first such column, in the
order of the select list and then of GROUP BY. -/
theorem named_columns_present (semantics : JoinSemantics) (s : Select) :
    (∀ (settings : Settings) (commands : List Engine.Command) (base : Table)
      (joined : List (JoinClause × Table)) (rows : List Row),
      sources ((Engine.start settings).run commands).catalog s = .ok (base, joined) →
      checkColumns (base :: joined.map (·.2)) s = .ok () →
      filterRows s.filter (joinedRows semantics base joined).1 = .ok rows →
        ColumnsPresent s rows) ∧
    ∀ (catalog : Catalog) (base : Table) (joined : List (JoinClause × Table)),
      sources catalog s = .ok (base, joined) → ∀ ref ∈ namedColumns s,
      (∀ table ∈ base :: joined.map (·.2), table.hasColumn ref.name = false) →
        ∃ front first behind, namedColumns s = front ++ first :: behind ∧
          (∀ known ∈ front, ∃ table ∈ base :: joined.map (·.2),
            table.hasColumn known.name = true) ∧
          (∀ table ∈ base :: joined.map (·.2), table.hasColumn first.name = false) ∧
          select semantics catalog s = .error (.unknownColumn first.name) := by
  constructor
  · intro settings commands base joined rows hsources hchecked hrows
    have hw : ((Engine.start settings).run commands).catalog.WellFormed :=
      Engine.run_keeps Catalog.WellFormed.kept .empty (Engine.start settings) commands .empty
    exact columnsPresent hw hsources hchecked hrows
  · intro catalog base joined hsources ref href hnone
    exact exists_refused hsources href hnone semantics

/-- A row that matches nothing is kept by a full join, and lacks no column of the other table. -/
theorem named_columns_present_fullJoin :
    let commands : List Engine.Command :=
      [.script "CREATE TABLE a(k,v);CREATE TABLE b(k,w);INSERT INTO a VALUES('x','y')"]
    let catalog := ((Engine.start .standard).run commands).catalog
    let clause : JoinClause := ⟨.full, ⟨"b", none⟩, [(⟨some "a", "k"⟩, ⟨some "b", "k"⟩)]⟩
    let item (name : String) : SelectItem := .expr (.column ⟨none, name⟩) none name
    let query (items : List SelectItem) : Select :=
      ⟨false, items, ⟨"a", none⟩, [clause], none, some [⟨none, "k"⟩], none, [], none, none⟩
    (∃ base joined rows, sources catalog (query [item "v", item "w"]) = .ok (base, joined) ∧
      rows.length = 1 ∧ filterRows none (joinedRows .standard base joined).1 = .ok rows ∧
      ColumnsPresent (query [item "v", item "w"]) rows) ∧
    ∃ front first behind, namedColumns (query [item "v", item "x"]) = front ++ first :: behind ∧
      select .standard catalog (query [item "v", item "x"]) =
        .error (.unknownColumn first.name) := by
  intro commands catalog clause item query
  let stages : Except SqlError (Nat × Bool) := do
    let found ← sources catalog (query [item "v", item "w"])
    checkColumns (found.1 :: found.2.map (·.2)) (query [item "v", item "w"])
    let rows ← filterRows none (joinedRows .standard found.1 found.2).1
    return (rows.length, (found.1 :: found.2.map (·.2)).any (·.hasColumn "x"))
  have hcatalog : catalog =
      { entries :=
          [("b", ⟨"b", [.plain "k" "TEXT", .plain "w" "TEXT"], [], []⟩),
            ("a", ⟨"a", [.plain "k" "TEXT", .plain "v" "TEXT"],
              [⟨[("k", .text "x"), ("v", .text "y")]⟩], []⟩)],
        order := ["a", "b"] } := by
    decide +kernel
  have hstages : stages.toOption.map id = some (1, false) := by
    simp only [stages, hcatalog]
    decide +kernel
  obtain ⟨result, hstages, rfl⟩ := exists_ok_of_map hstages
  obtain ⟨⟨base, joined⟩, hsources, hstages⟩ := bind_eq_ok.1 hstages
  obtain ⟨⟨⟩, hchecked, hstages⟩ := bind_eq_ok.1 hstages
  obtain ⟨rows, hrows, hstages⟩ := bind_eq_ok.1 hstages
  obtain ⟨hlength, hnone⟩ := Prod.mk.inj (Except.ok.inj hstages)
  constructor
  · refine ⟨base, joined, rows, hsources, hlength, hrows, ?_⟩
    exact (named_columns_present .standard _).1 .standard commands base joined rows hsources
      hchecked hrows
  · have hunknown : ∀ table ∈ base :: joined.map (·.2), table.hasColumn "x" = false :=
      fun table htable => Bool.eq_false_iff.2 (List.any_eq_false.1 hnone table htable)
    obtain ⟨front, first, behind, hsplit, -, -, hrefused⟩ :=
      (named_columns_present .standard (query [item "v", item "x"])).2 catalog base joined hsources
        ⟨none, "x"⟩ (by simp [namedColumns, query, item, Expr.columnRefs]) hunknown
    exact ⟨front, first, behind, hsplit, hrefused⟩

end SqlEngine.Query
