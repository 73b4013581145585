import SqlEngine.Proofs.Engine.ColumnNames
import SqlEngine.Proofs.Expr.Scope
import SqlEngine.Proofs.Query.Columns

/-!
# DISTINCT and GROUP BY

DISTINCT looks for repetitions among result rows, GROUP BY among the rows that they are made of. For
a select list of columns the two find the same ones: the names of columns are in small letters, so
columns that are shown under one name are one column, and a result row has the cells of its row.
What stands for a group is its first row, in the select list and, without aggregates, in ORDER BY.
-/
namespace SqlEngine

/-- An item of a select list shows a column under the name of the column. -/
def SelectItem.Shows (item : SelectItem) (ref : ColumnRef) : Prop :=
  ∃ text, item = .expr (.column ref) none text

/-- A select list is made of the given columns and nothing else, each result row stands for one row
of the tables, and no aggregate is asked for in ORDER BY. -/
structure Select.ShowsColumns (s : Select) (refs : List ColumnRef) : Prop where
  items_shown : List.Forall₂ SelectItem.Shows s.items refs
  columns_nonempty : refs ≠ []
  not_distinct : s.distinct = false
  not_grouped : s.groupBy = none
  no_having : s.having = none
  orderBy_plain : ∀ item ∈ s.orderBy, item.expr.containsAggregate = false

/-- A query with DISTINCT. -/
def Select.withDistinct (s : Select) : Select := { s with distinct := true }

/-- A query that is grouped by the given columns. -/
def Select.withGroupBy (s : Select) (refs : List ColumnRef) : Select :=
  { s with groupBy := some refs }

namespace Query

/-- The resolved select list of some columns. -/
def columnItems (refs : List ColumnRef) : List ListItem :=
  refs.map fun ref => .expr (Text.lower ref.name) (.column ref)

/-- The result row that some columns make of a row. -/
def shownRow (refs : List ColumnRef) (source : Row) : Row :=
  Row.ofFields (refs.map fun ref => (Text.lower ref.name, source.getD ref.name))

/-- The result row of a row with the values it is sorted by. -/
def shownWithKeys (orderBy : List OrderItem) (refs : List ColumnRef) (source : Row) :
    Except SqlError Projected := do
  return ⟨shownRow refs source, ← sortKeys orderBy (.layered (shownRow refs source) source)⟩

section Projection

variable {s : Select} {refs : List ColumnRef}

theorem mapM_resolveItem {items : List SelectItem} (h : List.Forall₂ SelectItem.Shows items refs)
    (sources : List Source) : items.mapM (resolveItem sources) = .ok (columnItems refs) := by
  refine mapM_eq_ok.2 (List.forall₂_map_right_iff.2 (h.imp ?_))
  rintro item ref ⟨text, rfl⟩
  rfl

theorem foldlM_columnItems (refs : List ColumnRef) (scope : Scope) (source : Option Row)
    (row : Row) : (columnItems refs).foldlM (addItem scope source) row = .ok (row.setAll
      (refs.map fun ref => (Text.lower ref.name, (scope.column? ref.name).getD .null))) := by
  induction refs generalizing row with
  | nil => rfl
  | cons ref rest ih =>
    rw [columnItems, List.map_cons, List.foldlM_cons]
    exact (bind_of_ok rfl _).trans (ih _)

/-- Columns make the same result row of a row and of a group that begins with it. -/
theorem project_columnItems (refs : List ColumnRef) {scope : Scope} {first : Row}
    (h : ∀ name, scope.column? name = first.get? name) (source : Option Row) :
    project (columnItems refs) scope source = .ok (shownRow refs first) := by
  rw [project, foldlM_columnItems]
  simp only [h]
  rfl

theorem projectRows_columnItems (s : Select) (refs : List ColumnRef) (rows : List Row) :
    projectRows s (columnItems refs) rows = rows.mapM (shownWithKeys s.orderBy refs) := by
  refine congrArg (rows.mapM ·) (funext fun row => ?_)
  rw [project_columnItems refs (fun _ => rfl)]
  rfl

/-- Sort keys without aggregates are computed alike where all columns have the same values. -/
theorem sortKeys_congr {orderBy : List OrderItem}
    (hplain : ∀ item ∈ orderBy, item.expr.containsAggregate = false) {scope other : Scope}
    (hcolumns : ∀ name, scope.column? name = other.column? name) :
    sortKeys orderBy scope = sortKeys orderBy other := by
  induction orderBy with
  | nil => rfl
  | cons item rest ih =>
    obtain ⟨hitem, hrest⟩ := List.forall_mem_cons.1 hplain
    have htail := ih hrest
    rw [sortKeys, sortKeys] at htail
    rw [sortKeys, sortKeys, List.mapM_cons, List.mapM_cons, htail,
      Expr.eval_congr hcolumns hitem]

/-- A group without HAVING has the result row and the sort keys of its first row. -/
theorem projectGroup_columnItems (hnone : s.having = none)
    (hplain : ∀ item ∈ s.orderBy, item.expr.containsAggregate = false) {group : List Row}
    {first : Row} (hfirst : group.head? = some first) :
    projectGroup s (columnItems refs) group =
      (do return some (← shownWithKeys s.orderBy refs first)) := by
  have hrow : project (columnItems refs) (.group group .empty) group.head? =
      .ok (shownRow refs first) := by
    refine project_columnItems refs (fun name => ?_) _
    simp only [Scope.column?, hfirst]
    rfl
  have hkeys : sortKeys s.orderBy (.group group (shownRow refs first)) =
      sortKeys s.orderBy (.layered (shownRow refs first) first) := by
    refine sortKeys_congr hplain fun name => ?_
    simp only [Scope.column?, hfirst]
    rfl
  rw [projectGroup, hrow]
  refine (bind_of_ok rfl _).trans ?_
  rw [hnone]
  refine (bind_of_ok rfl _).trans ?_
  rw [if_pos rfl, hkeys, shownWithKeys]
  simp only [bind_assoc, pure_bind]

theorem exists_ends_sortKeys {orderBy : List OrderItem}
    (hplain : ∀ item ∈ orderBy, item.expr.containsAggregate = false) :
    ∃ fault? : Option SqlError, ∀ scope, Ends fault? (sortKeys orderBy scope) := by
  induction orderBy with
  | nil => exact ⟨none, fun _ => .ok []⟩
  | cons item rest ih =>
    obtain ⟨hitem, hrest⟩ := List.forall_mem_cons.1 hplain
    obtain ⟨fault?, hends⟩ := ih hrest
    refine ⟨(item.expr.fault? .ungrouped).or fault?, fun scope => ?_⟩
    have hfirst := item.expr.ends_eval scope
    rw [Expr.fault?_of_plain _ hitem] at hfirst
    rw [sortKeys, List.mapM_cons]
    exact hfirst.map₂ (hends scope) _

/-- Whether the result row and the sort keys of a row can be computed does not depend on the row. -/
theorem shownWithKeys_cases {orderBy : List OrderItem}
    (hplain : ∀ item ∈ orderBy, item.expr.containsAggregate = false) (refs : List ColumnRef) :
    (∃ e, ∀ source, shownWithKeys orderBy refs source = .error e) ∨
      ∃ keys : Row → List Value, ∀ source,
        shownWithKeys orderBy refs source = .ok ⟨shownRow refs source, keys source⟩ := by
  obtain ⟨_ | e, hends⟩ := exists_ends_sortKeys hplain
  · choose keys hkeys using hends
    exact .inr ⟨fun source => keys (.layered (shownRow refs source) source), fun source =>
      bind_of_ok (hkeys _) _⟩
  · have hfails : ∀ scope, sortKeys orderBy scope = .error e := hends
    refine .inl ⟨e, fun source => ?_⟩
    rw [shownWithKeys, hfails]
    rfl

end Projection

section SameRows

variable {refs : List ColumnRef}
  (hnames : ∀ ref ∈ refs, Text.sameName (Text.lower ref.name) ref.name = true)
include hnames

/-- The cells of a result row are those of the source row under the names of the columns. -/
theorem values_shownRow (source : Row) : (shownRow refs source).values =
    (Row.firstNames (refs.map fun ref => Text.lower ref.name)).map source.getD := by
  rw [← Row.values_ofFields_restrict, shownRow, Row.restrict, List.map_map]
  refine congrArg (fun fields => (Row.ofFields fields).values) (List.map_congr_left ?_)
  intro ref href
  have hcell : source.getD ref.name = source.getD (Text.lower ref.name) :=
    congrArg (·.getD Value.null) (source.get?_congr (hnames ref href)).symm
  exact congrArg (Prod.mk (Text.lower ref.name)) hcell

/-- Two rows make the same result row for DISTINCT exactly if GROUP BY puts them into one group. -/
theorem groupKey_values_iff (a b : Row) :
    (shownRow refs a).values.map Value.groupKey = (shownRow refs b).values.map Value.groupKey ↔
      a.groupKey (refs.map (·.name)) = b.groupKey (refs.map (·.name)) := by
  have hcell : ∀ ref ∈ refs, ∀ {name} (row : Row), Text.sameName name (Text.lower ref.name) = true →
      row.getD name = row.getD ref.name := fun ref href name row hsame =>
    congrArg (·.getD Value.null) (row.get?_congr (Text.sameName_trans hsame (hnames ref href)))
  rw [values_shownRow hnames, values_shownRow hnames, List.map_map, List.map_map, List.map_inj_left,
    Row.groupKey, Row.groupKey, List.map_map, List.map_map, List.map_inj_left]
  constructor
  · intro h ref href
    obtain ⟨name, hname, hsame⟩ := Row.exists_mem_firstNames
      (List.mem_map_of_mem (f := fun ref : ColumnRef => Text.lower ref.name) href)
    have heq := h name hname
    simp only [Function.comp, hcell ref href _ hsame] at heq
    exact heq
  · intro h name hname
    obtain ⟨ref, href, rfl⟩ := List.mem_map.1 (Row.firstNames_subset _ hname)
    have heq := h ref href
    simp only [Function.comp, hcell ref href _ (Text.sameName_refl _)]
    exact heq

/-- The result rows without repetitions are those of the groups. -/
theorem distinctRows_eq_projectGroups {s : Select} (hrefs : refs ≠ []) (hnone : s.having = none)
    (hplain : ∀ item ∈ s.orderBy, item.expr.containsAggregate = false) (rows : List Row) :
    (do return distinctRows (← projectRows s (columnItems refs) rows)) =
      projectGroups (s.withGroupBy refs) (columnItems refs) rows := by
  have hgroups : projectGroups (s.withGroupBy refs) (columnItems refs) rows = (do
      let made ← (firstsBy (Row.groupKey (refs.map (·.name))) rows).mapM fun first => do
        return some (← shownWithKeys s.orderBy refs first)
      return made.filterMap id) := by
    have hpartition : partition (refs.map (·.name)) rows =
        groupsBy (Row.groupKey (refs.map (·.name))) rows :=
      if_neg (by simpa using hrefs)
    have hmade : (groupsBy (Row.groupKey (refs.map (·.name))) rows).mapM
        (projectGroup (s.withGroupBy refs) (columnItems refs)) =
        (firstsBy (Row.groupKey (refs.map (·.name))) rows).mapM fun first => do
          return some (← shownWithKeys s.orderBy refs first) := by
      rw [groupsBy_eq_gathered, gathered, List.mapM_map]
      exact mapM_congr fun first hfirst =>
        projectGroup_columnItems hnone hplain (head?_filter_of_mem_firstsBy hfirst)
    rw [projectGroups, ← hmade, ← hpartition]
    rfl
  rw [hgroups, projectRows_columnItems]
  rcases shownWithKeys_cases hplain refs with ⟨e, he⟩ | ⟨keys, hkeys⟩
  · cases rows with
    | nil => rfl
    | cons first rest =>
      rw [firstsBy, List.mapM_cons, List.mapM_cons, he]
      rfl
  · have hfirsts : distinctRows (rows.map fun row => ⟨shownRow refs row, keys row⟩) =
        (firstsBy (Row.groupKey (refs.map (·.name))) rows).map
          fun row => ⟨shownRow refs row, keys row⟩ := by
      rw [distinctRows, firstsBy_map]
      exact congrArg (List.map _) (firstsBy_congr fun a _ b _ => groupKey_values_iff hnames a b)
    have hgroup : ∀ first ∈ firstsBy (Row.groupKey (refs.map (·.name))) rows,
        (do return some (← shownWithKeys s.orderBy refs first)) =
          Except.ok (some ⟨shownRow refs first, keys first⟩) :=
      fun first _ => bind_of_ok (hkeys first) _
    rw [mapM_eq_map fun row _ => hkeys row, mapM_eq_map hgroup]
    refine congrArg Except.ok (hfirsts.trans ?_)
    rw [List.filterMap_map]
    exact (congrFun List.filterMap_eq_map _).symm

end SameRows

section Answers

variable {semantics : JoinSemantics} {catalog : Catalog}

/-- A name that finds a column in small letters is the same name in small letters. -/
theorem sameName_lower_of_hasColumn {table : Table} (hsmall : Grammar.NamesSmall table.columns)
    {name : String} (h : table.hasColumn name = true) :
    Text.sameName (Text.lower name) name = true := by
  obtain ⟨column, hcolumn⟩ := Option.isSome_iff_exists.1 h
  have hsame := Table.sameName_of_column? hcolumn
  rw [← Text.lower_congr hsame, hsmall column (List.mem_of_find?_eq_some hcolumn)]
  exact hsame

/-- The tables of a query have columns in small letters if those of the catalog have. -/
theorem smallNames_sources (hsmall : catalog.SmallNames) {s : Select} {base : Table}
    {joined : List (JoinClause × Table)} (h : sources catalog s = .ok (base, joined)) :
    ∀ table ∈ base :: joined.map (·.2), Grammar.NamesSmall table.columns := by
  obtain ⟨found, hfound, h⟩ := bind_eq_ok.1 h
  obtain ⟨steps, hsteps, h⟩ := bind_eq_ok.1 h
  cases h
  refine List.forall_mem_cons.2 ⟨hsmall.of_get hfound, List.forall_mem_map.2 fun step hstep => ?_⟩
  obtain ⟨clause, -, hclause⟩ := exists_of_mem_mapM hsteps hstep
  obtain ⟨table, htable, hclause⟩ := bind_eq_ok.1 hclause
  cases hclause
  exact hsmall.of_get htable

/-- The columns of a query that was not refused are the same names in small letters. -/
theorem sameName_lower_of_checkColumns {tables : List Table}
    (hsmall : ∀ table ∈ tables, Grammar.NamesSmall table.columns) {s : Select}
    (h : checkColumns tables s = .ok ()) :
    ∀ ref ∈ namedColumns s, Text.sameName (Text.lower ref.name) ref.name = true := by
  intro ref href
  obtain ⟨table, htable, hcolumn⟩ := checkColumns_eq_ok.1 h ref href
  exact sameName_lower_of_hasColumn (hsmall table htable) hcolumn

section ShownColumns

variable {s : Select} {refs : List ColumnRef} (h : List.Forall₂ SelectItem.Shows s.items refs)
include h

theorem namedColumns_of_shows : namedColumns s = refs ++ s.groupBy.getD [] := by
  rw [namedColumns]
  refine congrArg (· ++ _) ?_
  generalize s.items = items at h ⊢
  induction h with
  | nil => rfl
  | cons hitem _ ih =>
    obtain ⟨text, rfl⟩ := hitem
    rw [List.flatMap_cons, ih]
    rfl

theorem isGrouped_of_shows : isGrouped s = s.groupBy.isSome := by
  rw [isGrouped]
  refine (congrArg (s.groupBy.isSome || ·) ?_).trans (Bool.or_false _)
  generalize s.items = items at h ⊢
  induction h with
  | nil => rfl
  | cons hitem _ ih =>
    obtain ⟨text, rfl⟩ := hitem
    rw [List.any_cons, ih]
    rfl

end ShownColumns

variable {s : Select} {refs : List ColumnRef} (h : s.ShowsColumns refs)
include h

/-- The columns are looked for alike when they are named once more in GROUP BY. -/
theorem checkColumns_withGroupBy (tables : List Table) :
    checkColumns tables (s.withGroupBy refs) = checkColumns tables s.withDistinct := by
  have hgrouped : namedColumns (s.withGroupBy refs) = refs ++ refs :=
    namedColumns_of_shows h.items_shown
  have hdistinct : namedColumns s.withDistinct = refs ++ s.groupBy.getD [] :=
    namedColumns_of_shows h.items_shown
  rw [h.not_grouped, Option.getD_none, List.append_nil] at hdistinct
  rw [checkColumns, checkColumns, hgrouped, hdistinct, List.find?_append, Option.or_self]

/-- Adding DISTINCT to a query for some columns has the same effect as grouping by them. -/
theorem select_withDistinct (hsmall : catalog.SmallNames) :
    select semantics catalog s.withDistinct = select semantics catalog (s.withGroupBy refs) := by
  have hdistinct : isGrouped s.withDistinct = s.groupBy.isSome := isGrouped_of_shows h.items_shown
  rw [h.not_grouped] at hdistinct
  rw [select_eq, select_eq]
  refine bind_congr_of_ok fun ⟨base, joined⟩ hsources => ?_
  dsimp only
  rw [checkColumns_withGroupBy h]
  refine bind_congr_of_ok fun _ hchecked => ?_
  refine bind_congr_of_ok fun items hitems => ?_
  obtain rfl : columnItems refs = items :=
    Except.ok.inj ((mapM_resolveItem h.items_shown _).symm.trans hitems)
  refine bind_congr_of_ok fun rows _ => ?_
  have hnames : ∀ ref ∈ refs, Text.sameName (Text.lower ref.name) ref.name = true := by
    intro ref href
    refine sameName_lower_of_checkColumns (smallNames_sources hsmall hsources) hchecked ref ?_
    rw [namedColumns_of_shows (s := s.withDistinct) h.items_shown]
    exact List.mem_append_left _ href
  have houtput : outputRows (s.withGroupBy refs) (columnItems refs) rows = (do
      return distinctRows (← outputRows s.withDistinct (columnItems refs) rows)) := by
    rw [outputRows, outputRows, hdistinct]
    exact (distinctRows_eq_projectGroups hnames h.columns_nonempty h.no_having h.orderBy_plain
      rows).symm
  have hplain : (s.withGroupBy refs).distinct = false := h.not_distinct
  rw [houtput, hplain]
  simp only [bind_assoc, pure_bind, Bool.false_eq_true, if_false]
  rfl

end Answers

end Query
end SqlEngine
