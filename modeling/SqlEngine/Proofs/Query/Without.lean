import SqlEngine.Proofs.Expr.Without
import SqlEngine.Proofs.Join.Without
import SqlEngine.Proofs.Query.Stages

/-!
# Queries without a column

A query that names other columns only and has no star in its select list is answered alike whether
the tables have a column or not. The cells under the name travel through the joins, the filter and
the groups, and they are dropped before a result row is made.
-/
namespace SqlEngine

/-- The catalog with a column taken from every table. -/
def Catalog.without (column : String) (catalog : Catalog) : Catalog :=
  { catalog with entries := catalog.entries.map (Prod.map id (·.without column)) }

theorem Catalog.find?_without (column : String) (catalog : Catalog) (name : String) :
    (catalog.without column).find? name = (catalog.find? name).map (·.without column) := by
  obtain ⟨entries, order⟩ := catalog
  simp only [find?, without]
  induction entries with
  | nil => rfl
  | cons entry rest ih =>
    rw [List.map_cons, Prod.map, List.lookup_cons, List.lookup_cons, id]
    split
    · rfl
    · exact ih

theorem Catalog.get_without (column : String) (catalog : Catalog) (name : String) :
    (catalog.without column).get name = (do return (← catalog.get name).without column) := by
  rw [get, get, find?_without]
  cases catalog.find? name <;> rfl

/-- The columns that a query names, clause by clause. -/
def Select.columnRefs (s : Select) : List ColumnRef :=
  s.items.flatMap (fun item => match item with | .expr e _ _ => e.columnRefs | _ => []) ++
    s.joins.flatMap (fun clause => clause.pairs.flatMap fun pair => [pair.1, pair.2]) ++
    Condition.clauseRefs s.filter ++ s.groupBy.getD [] ++ Condition.clauseRefs s.having ++
    s.orderBy.flatMap fun item => item.expr.columnRefs

/-- The item stands for all columns, or for those of one table. -/
def SelectItem.isStar : SelectItem → Bool
  | .star | .starOf _ => true
  | .expr _ _ _ => false

theorem SelectItem.exists_expr {item : SelectItem} (h : item.isStar = false) :
    ∃ e alias? text, item = .expr e alias? text := by
  cases item with
  | star | starOf => cases h
  | expr e alias? text => exact ⟨e, alias?, text, rfl⟩

/-- No item of the select list is a star. -/
def Select.StarFree (s : Select) : Prop := ∀ item ∈ s.items, item.isStar = false

open ColumnRef

/-- The query names other columns only, and it has no star in its select list. -/
structure Select.Avoids (column : String) (s : Select) : Prop where
  starFree : s.StarFree
  items : ∀ item ∈ s.items, ∀ e alias? text, item = .expr e alias? text →
    AllOther column e.columnRefs
  joins : ∀ clause ∈ s.joins, clause.Avoids column
  filter : AllOther column (Condition.clauseRefs s.filter)
  groupBy : AllOther column (s.groupBy.getD [])
  having : AllOther column (Condition.clauseRefs s.having)
  orderBy : ∀ item ∈ s.orderBy, AllOther column item.expr.columnRefs

theorem Select.avoids_of_columnRefs {column : String} {s : Select} (hstars : s.StarFree)
    (h : AllOther column s.columnRefs) : s.Avoids column := by
  simp only [columnRefs, allOther_append] at h
  obtain ⟨⟨⟨⟨⟨hitems, hjoins⟩, hfilter⟩, hgroup⟩, hhaving⟩, horder⟩ := h
  refine ⟨hstars, ?_, ?_, hfilter, hgroup, hhaving, ?_⟩
  · rintro item hitem e alias? text rfl ref href
    exact hitems ref (List.mem_flatMap.2 ⟨_, hitem, href⟩)
  · intro clause hclause pair hpair
    have hrefs : ∀ ref ∈ [pair.1, pair.2], Text.isOther column ref.name = true := by
      intro ref href
      exact hjoins ref
        (List.mem_flatMap.2 ⟨clause, hclause, List.mem_flatMap.2 ⟨pair, hpair, href⟩⟩)
    exact ⟨hrefs _ List.mem_cons_self, hrefs _ (List.mem_cons_of_mem _ List.mem_cons_self)⟩
  · intro item hitem ref href
    exact horder ref (List.mem_flatMap.2 ⟨item, hitem, href⟩)

namespace Query

variable {column : String}

/-- An item that is resolved, over other columns. -/
def ListItem.Avoids (column : String) : ListItem → Prop
  | .expr _ e => AllOther column e.columnRefs
  | .star | .columns _ => False

/-- The result row is the same, whatever row the scope was made from. -/
theorem project_without {items : List ListItem} (h : ∀ item ∈ items, item.Avoids column)
    (scope : Scope) (source source' : Option Row) :
    project items (scope.without column) source' = project items scope source := by
  have hrow : ∀ row, items.foldlM (addItem (scope.without column) source') row =
      items.foldlM (addItem scope source) row := by
    induction items with
    | nil => exact fun _ => rfl
    | cons item rest ih =>
      intro row
      obtain ⟨hitem, hrest⟩ := List.forall_mem_cons.1 h
      cases item with
      | star | columns => exact hitem.elim
      | expr name e =>
        rw [List.foldlM_cons, List.foldlM_cons, addItem, addItem, Expr.eval_without scope e hitem]
        exact congrArg (_ >>= ·) (funext fun next => ih hrest next)
  exact hrow Row.empty

theorem sortKeys_without {orderBy : List OrderItem}
    (h : ∀ item ∈ orderBy, AllOther column item.expr.columnRefs) (scope : Scope) :
    sortKeys orderBy (scope.without column) = sortKeys orderBy scope :=
  mapM_congr fun item hitem => Expr.eval_without scope item.expr (h item hitem)

/-- The same rows pass the filter. -/
theorem filterRows_without {clause : Option Condition}
    (h : AllOther column (Condition.clauseRefs clause)) (rows : List Row) :
    filterRows clause (rows.map (·.without column)) =
      (do return (← filterRows clause rows).map (·.without column)) := by
  induction rows with
  | nil => rfl
  | cons row rest ih =>
    have hrow : Condition.clauseHolds clause (.row (row.without column)) =
        Condition.clauseHolds clause (.row row) := Condition.clauseHolds_without (.row row) h
    rw [List.map_cons, filterRows, filterRows, ih, hrow]
    simp only [bind_assoc, pure_bind]
    refine congrArg (_ >>= ·) (funext fun holds => congrArg (_ >>= ·) (funext fun kept => ?_))
    cases holds <;> rfl

theorem partition_without {columns : List String}
    (h : ∀ name ∈ columns, Text.isOther column name = true) (rows : List Row) :
    partition columns (rows.map (·.without column)) =
      (partition columns rows).map (·.map (·.without column)) := by
  have hkey : (fun row : Row => (id (row.without column)).groupKey columns) =
      fun row => (id row).groupKey columns := funext fun row => row.groupKey_without h
  rw [partition, partition, partitionOn, partitionOn, groupsBy_map, hkey]
  split
  · rfl
  · rfl

section Output

variable {s : Select} (hs : s.Avoids column) {items : List ListItem}
  (hitems : ∀ item ∈ items, item.Avoids column)
include hs hitems

theorem projectRows_without (rows : List Row) :
    projectRows s items (rows.map (·.without column)) = projectRows s items rows := by
  rw [projectRows, projectRows, List.mapM_map]
  refine mapM_congr fun source _ => ?_
  have hproject := project_without hitems (.row source) (some source) (some (source.without column))
  have hkeys := fun row => sortKeys_without hs.orderBy (.layered row source)
  rw [Scope.without] at hproject
  simp only [Scope.without] at hkeys
  simp only [Function.comp, hproject, hkeys]

theorem projectGroup_without (group : List Row) :
    projectGroup s items (group.map (·.without column)) = projectGroup s items group := by
  have hproject := project_without hitems (.group group .empty) group.head?
    (group.map (·.without column)).head?
  have hkeys := fun row => sortKeys_without hs.orderBy (.group group row)
  have hholds := fun row => Condition.clauseHolds_without (.group group row) hs.having
  rw [Scope.without] at hproject
  simp only [Scope.without] at hkeys hholds
  rw [projectGroup, projectGroup, hproject]
  simp only [hkeys, hholds]

theorem projectGroups_without (rows : List Row) :
    projectGroups s items (rows.map (·.without column)) = projectGroups s items rows := by
  have hnames : ∀ name ∈ (s.groupBy.getD []).map (·.name), Text.isOther column name = true :=
    List.forall_mem_map.2 hs.groupBy
  rw [projectGroups, projectGroups, partition_without hnames, List.mapM_map]
  exact congrArg (_ <$> ·) (mapM_congr fun group _ => projectGroup_without hs hitems group)

theorem outputRows_without (rows : List Row) :
    outputRows s items (rows.map (·.without column)) = outputRows s items rows := by
  rw [outputRows, outputRows, projectGroups_without hs hitems, projectRows_without hs hitems]

end Output

theorem sources_without (column : String) (catalog : Catalog) (s : Select) :
    sources (catalog.without column) s = (do
      let (base, joined) ← sources catalog s
      return (base.without column, joined.map (Prod.map id (·.without column)))) := by
  have hjoined : (s.joins.mapM fun clause => do
      return (clause, ← (catalog.without column).get clause.table.name)) = (do
        let joined ← s.joins.mapM fun clause => do
          return (clause, ← catalog.get clause.table.name)
        return joined.map (Prod.map id (·.without column))) := by
    induction s.joins with
    | nil => rfl
    | cons clause rest ih =>
      rw [List.mapM_cons, List.mapM_cons, ih, Catalog.get_without]
      simp only [bind_assoc, pure_bind, List.map_cons, Prod.map, id]
  rw [sources, sources, hjoined, Catalog.get_without]
  simp only [bind_assoc, pure_bind]

/-- The clauses of the joins that were looked up are those of the query. -/
theorem mem_joins_of_sources {catalog : Catalog} {s : Select} {base : Table}
    {joined : List (JoinClause × Table)} (h : sources catalog s = .ok (base, joined)) :
    ∀ step ∈ joined, step.1 ∈ s.joins := by
  intro step hstep
  obtain ⟨_, -, h⟩ := bind_eq_ok.1 h
  obtain ⟨_, hjoined, h⟩ := bind_eq_ok.1 h
  cases h
  obtain ⟨clause, hclause, hread⟩ := exists_of_mem_mapM hjoined hstep
  obtain ⟨table, -, hread⟩ := bind_eq_ok.1 hread
  cases hread
  exact hclause

/-- All joins taken together make the same rows, apart from the cells under the name. -/
theorem joinedRows_without (semantics : JoinSemantics) (base : Table)
    {joined : List (JoinClause × Table)} (h : ∀ step ∈ joined, step.1.Avoids column) :
    joinedRows semantics (base.without column) (joined.map (Prod.map id (·.without column))) =
      Prod.map (·.map (·.without column)) (·.filter (Text.isOther column))
        (joinedRows semantics base joined) := by
  rw [joinedRows, joinedRows, Table.columnNames_without]
  change List.foldl _ (base.rows.map (·.without column), _) _ = _
  generalize base.rows = rows
  generalize base.columnNames = columns
  induction joined generalizing rows columns with
  | nil => rfl
  | cons step rest ih =>
    obtain ⟨hstep, hrest⟩ := List.forall_mem_cons.1 h
    rw [List.map_cons, List.foldl_cons, List.foldl_cons, ← ih hrest]
    dsimp only [Prod.map, id]
    rw [Join.joinRows_without hstep, Join.joinColumns_without]

theorem any_hasColumn_without {name : String} (h : Text.isOther column name = true)
    (tables : List Table) :
    (tables.map (·.without column)).any (·.hasColumn name) = tables.any (·.hasColumn name) := by
  rw [List.any_map]
  exact congrArg tables.any (funext fun table => table.hasColumn_without h)

theorem checkColumns_without (tables : List Table) {s : Select} (hs : s.Avoids column) :
    checkColumns (tables.map (·.without column)) s = checkColumns tables s := by
  have hnamed : AllOther column (namedColumns s) := by
    refine allOther_append.2 ⟨?_, hs.groupBy⟩
    intro ref href
    obtain ⟨item, hitem, href⟩ := List.mem_flatMap.1 href
    obtain ⟨e, alias?, text, rfl⟩ := SelectItem.exists_expr (hs.starFree item hitem)
    exact hs.items _ hitem e alias? text rfl ref href
  have hfind : ∀ refs, AllOther column refs →
      (refs.find? fun ref => !(tables.map (·.without column)).any (·.hasColumn ref.name)) =
        refs.find? fun ref => !tables.any (·.hasColumn ref.name) := by
    intro refs hrefs
    induction refs with
    | nil => rfl
    | cons ref rest ih =>
      obtain ⟨href, hrest⟩ := List.forall_mem_cons.1 hrefs
      rw [List.find?_cons, List.find?_cons, any_hasColumn_without href, ih hrest]
  rw [checkColumns, checkColumns, hfind _ hnamed]

/-- Without a star the select list does not depend on the tables. -/
theorem resolveItems_without {s : Select} (hs : s.Avoids column) (named named' : List Source) :
    s.items.mapM (resolveItem named') = s.items.mapM (resolveItem named) := by
  refine mapM_congr fun item hitem => ?_
  obtain ⟨e, alias?, text, rfl⟩ := SelectItem.exists_expr (hs.starFree item hitem)
  rfl

theorem avoids_of_resolveItems {s : Select} (hs : s.Avoids column) {named : List Source}
    {items : List ListItem} (h : s.items.mapM (resolveItem named) = .ok items) :
    ∀ item ∈ items, item.Avoids column := by
  intro item hitem
  obtain ⟨own, hown, hread⟩ := exists_of_mem_mapM h hitem
  obtain ⟨e, alias?, text, rfl⟩ := SelectItem.exists_expr (hs.starFree own hown)
  cases hread
  exact hs.items _ hown e alias? text rfl

/-- A query that names other columns only is answered alike without the column. -/
theorem select_without (semantics : JoinSemantics) (catalog : Catalog) {s : Select}
    (hs : s.Avoids column) :
    select semantics (catalog.without column) s = select semantics catalog s := by
  rw [select_eq, select_eq, sources_without, bind_assoc]
  refine bind_congr_of_ok fun tables htables => ?_
  obtain ⟨base, joined⟩ := tables
  have hjoins : ∀ step ∈ joined, step.1.Avoids column := fun step hstep =>
    hs.joins step.1 (mem_joins_of_sources htables step hstep)
  have htables : (base.without column :: (joined.map (Prod.map id (·.without column))).map (·.2)) =
      (base :: joined.map (·.2)).map (·.without column) := by
    rw [List.map_cons, List.map_map, List.map_map]
    rfl
  rw [pure_bind]
  dsimp only
  rw [htables, checkColumns_without _ hs, joinedRows_without semantics base hjoins,
    resolveItems_without hs]
  -- Up to here both sides fail alike; the rows differ in the cells under the name until they are
  -- made into result rows.
  refine congrArg (_ >>= ·) (funext fun _ => bind_congr_of_ok fun items hitems => ?_)
  have havoid := avoids_of_resolveItems hs hitems
  rw [Prod.map, filterRows_without hs.filter]
  simp only [bind_assoc, pure_bind, outputRows_without hs havoid]

end Query
end SqlEngine
