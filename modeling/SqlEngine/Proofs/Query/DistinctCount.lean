import SqlEngine.Proofs.Query.Distinct

/-!
# COUNT(DISTINCT)

COUNT(DISTINCT) of a column drops repetitions among the values of one group, where a query with
DISTINCT drops them among result rows. Both keep the first of equal values, so the count is the
number of rows that the query leaves, those with a missing value aside.
-/
namespace SqlEngine

/-- A query for one expression over the rows of some tables under a condition. -/
def Select.single (item : SelectItem) (source : TableRef) (joins : List JoinClause)
    (filter : Option Condition) : Select :=
  { distinct := false, items := [item], source, joins, filter
    groupBy := none, having := none, orderBy := [], limit := none, offset := none }

namespace Query

section Counting

variable {semantics : JoinSemantics} {catalog : Catalog}

/-- The number of different values of a column that are not missing. -/
def countDistinct (g : ColumnRef) (rows : List Row) : Nat :=
  ((distinctValues (rows.map (·.getD g.name))).filter (!·.isNull)).length

/-- The rows of a column without repetitions, cell by cell. -/
theorem rows_listing_distinct (g : ColumnRef) (rows : List Row) :
    (listing ((distinctRows (rows.map fun row => ⟨shownRow [g] row, []⟩)).map (·.row))).rows =
      (distinctValues (rows.map (·.getD g.name))).map fun v => [v] := by
  have hfirsts : firstsBy (fun row => [(row.getD g.name).groupKey]) rows =
      firstsBy (fun row => (row.getD g.name).groupKey) rows :=
    firstsBy_congr fun a _ b _ => List.singleton_inj
  have hrows : ∀ row ∈ (distinctRows (rows.map fun row => ⟨shownRow [g] row, []⟩)).map (·.row),
      row.names = [Text.lower g.name] := by
    intro row hrow
    obtain ⟨p, hp, rfl⟩ := List.mem_map.1 hrow
    obtain ⟨origin, -, rfl⟩ := List.mem_map.1 ((firstsBy_sublist _ _).subset hp)
    rfl
  rw [(listing_of_names (List.pairwise_singleton _ _) hrows).1, distinctRows, firstsBy_map,
    distinctValues, firstsBy_map, List.map_map, List.map_map, List.map_map, ← hfirsts]
  rfl

/-- As many rows are left of a column as it has different values, those that are missing aside. -/
theorem length_listing_distinct (g : ColumnRef) (rows : List Row) :
    ((listing ((distinctRows (rows.map fun row => ⟨shownRow [g] row, []⟩)).map (·.row))).rows.filter
      (· != [.null])).length = countDistinct g rows := by
  rw [rows_listing_distinct, List.filter_map, List.length_map, countDistinct]
  refine congrArg List.length (List.filter_congr fun v _ => ?_)
  cases v <;> simp [Value.isNull]

/-- A single cell is listed under its name. -/
theorem listing_single (name : String) (value : Value) :
    listing [⟨[(name, value)]⟩] = ⟨[name], [[value]]⟩ := by
  have hcell : Row.getD ⟨[(name, value)]⟩ name = value := by
    simp [Row.getD, Row.get?, Text.sameName_refl]
  simp [listing, Row.names, hcell]

/-- A group has one value of COUNT(DISTINCT). -/
theorem eval_count (g : ColumnRef) (rows : List Row) :
    (Expr.call .count true [.column g]).eval (.group rows .empty) =
      .ok (.ofNat (countDistinct g rows)) := by
  have hvalues : (rows.mapM fun row => (Expr.column g).eval (.row row)) =
      .ok (rows.map (·.getD g.name)) := mapM_eq_map fun row _ => rfl
  have haggregate : Function.count.isAggregate = true := rfl
  rw [Expr.eval, if_pos haggregate]
  exact bind_of_ok hvalues _

/-- All rows together make one result row. -/
theorem projectGroups_count {s : Select} (hgroup : s.groupBy = none) (hnone : s.having = none)
    (horder : s.orderBy = []) (name : String) (g : ColumnRef) (rows : List Row) :
    projectGroups s [.expr name (.call .count true [.column g])] rows =
      .ok [⟨⟨[(name, .ofNat (countDistinct g rows))]⟩, []⟩] := by
  have hproject : project [.expr name (.call .count true [.column g])] (.group rows .empty)
      rows.head? = .ok ⟨[(name, .ofNat (countDistinct g rows))]⟩ := by
    rw [project, List.foldlM_cons, addItem, eval_count]
    rfl
  have hmade : projectGroup s [.expr name (.call .count true [.column g])] rows =
      .ok (some ⟨⟨[(name, .ofNat (countDistinct g rows))]⟩, []⟩) := by
    refine (bind_of_ok hproject _).trans ?_
    rw [hnone, horder]
    rfl
  have hgroups : partition ((s.groupBy.getD []).map (·.name)) rows = [rows] := by
    rw [hgroup]
    rfl
  rw [projectGroups, hgroups, List.mapM_cons, hmade]
  rfl

/-- COUNT(DISTINCT) of a column is the number of rows that DISTINCT leaves of it and that are not
missing. -/
theorem select_count (g : ColumnRef) (text label : String) (alias? : Option String)
    (source : TableRef) (joins : List JoinClause) (filter : Option Condition) :
    select semantics catalog
        (.single (.expr (.call .count true [.column g]) alias? label) source joins filter) = (do
      let answer ← select semantics catalog
        (Select.single (.expr (.column g) none text) source joins filter).withDistinct
      return ⟨[alias?.getD label], [[.ofNat (answer.rows.filter (· != [.null])).length]]⟩) := by
  have hname : (SelectItem.expr (.call .count true [.column g]) alias? label).outputName?.getD "" =
      alias?.getD label := by
    cases alias? <;> rfl
  rw [select_eq, select_eq, bind_assoc]
  refine bind_congr_of_ok fun ⟨base, joined⟩ _ => ?_
  dsimp only
  rw [bind_assoc]
  refine bind_congr_of_ok fun _ _ => ?_
  -- The select lists differ from here on, and neither can be refused.
  refine (bind_of_ok (congrArg (fun name => Except.ok [ListItem.expr name _]) hname) _).trans ?_
  rw [bind_assoc]
  refine .trans ?_ (bind_of_ok (a := columnItems [g]) rfl _).symm
  rw [bind_assoc]
  refine bind_congr_of_ok fun rows _ => ?_
  refine (bind_of_ok (projectGroups_count rfl rfl rfl _ g rows) _).trans ?_
  have hshown : projectRows (Select.single (.expr (.column g) none text) source joins
      filter).withDistinct (columnItems [g]) rows =
        .ok (rows.map fun row => ⟨shownRow [g] row, []⟩) := by
    rw [projectRows_columnItems]
    exact mapM_eq_map fun row _ => rfl
  rw [bind_assoc]
  refine .trans ?_ (bind_of_ok hshown _).symm
  refine congrArg Except.ok ((listing_single _ _).trans ?_)
  exact congrArg (fun n => (⟨[alias?.getD label], [[.ofNat n]]⟩ : Listing))
    (length_listing_distinct g rows).symm

end Counting

/-- On every catalog that scripts lead to, DISTINCT, GROUP BY and COUNT(DISTINCT) tell the same
values apart. A query that shows columns and nothing else has the same answer, or fails alike, with
DISTINCT and with these columns in GROUP BY; and COUNT(DISTINCT) of a column is the number of rows
that DISTINCT leaves of it and that are not missing. -/
theorem distinct_agrees_with_groups (settings : Settings) (commands : List Engine.Command)
    (semantics : JoinSemantics) :
    let catalog := ((Engine.start settings).run commands).catalog
    (∀ (s : Select) (refs : List ColumnRef), s.ShowsColumns refs →
      select semantics catalog s.withDistinct = select semantics catalog (s.withGroupBy refs)) ∧
    ∀ (g : ColumnRef) (text label : String) (alias? : Option String) (source : TableRef)
      (joins : List JoinClause) (filter : Option Condition),
      select semantics catalog
          (.single (.expr (.call .count true [.column g]) alias? label) source joins filter) = (do
        let answer ← select semantics catalog
          (Select.single (.expr (.column g) none text) source joins filter).withDistinct
        return ⟨[alias?.getD label], [[.ofNat (answer.rows.filter (· != [.null])).length]]⟩) := by
  intro catalog
  have hsmall : catalog.SmallNames := Engine.smallNames_run settings commands
  constructor
  · exact fun s refs h => select_withDistinct h hsmall
  · exact fun g text label alias? source joins filter =>
      select_count g text label alias? source joins filter

/-- A value is repeated, another one is missing, and the column is named twice. -/
theorem distinct_agrees_with_groups_letters :
    let commands : List Engine.Command :=
      [.script "CREATE TABLE t(v);INSERT INTO t VALUES('b'),('a'),(NULL),('b')"]
    let catalog := ((Engine.start .standard).run commands).catalog
    let refs : List ColumnRef := [⟨none, "v"⟩, ⟨none, "v"⟩]
    let s : Select :=
      { distinct := false
        items := [.expr (.column ⟨none, "v"⟩) none "v", .expr (.column ⟨none, "v"⟩) none "v"]
        source := ⟨"t", none⟩, joins := []
        filter := some (.compare .eq (.column ⟨none, "v"⟩) (.literal (.text "b")))
        groupBy := none, having := none
        orderBy := [⟨.column ⟨none, "v"⟩, true⟩], limit := none, offset := none }
    s.ShowsColumns refs ∧
      (select .standard catalog (s.withGroupBy refs)).toOption.map (·.rows) =
        some [[.text "b"]] ∧
      (select .standard catalog (.single (.expr (.call .count true [.column ⟨none, "v"⟩]) none "n")
        ⟨"t", none⟩ [] none)).toOption.map (·.rows) = some [[.number 2]] := by
  intro commands catalog refs s
  have hcatalog : catalog = ⟨[("t", ⟨"t", [.plain "v" "TEXT"], [⟨[("v", .text "b")]⟩,
      ⟨[("v", .text "a")]⟩, ⟨[("v", .null)]⟩, ⟨[("v", .text "b")]⟩], []⟩)], ["t"]⟩ := by
    decide +kernel
  have hshows : s.ShowsColumns refs :=
    ⟨.cons ⟨"v", rfl⟩ (.cons ⟨"v", rfl⟩ .nil), List.cons_ne_nil _ _, rfl, rfl, rfl,
      List.forall_mem_singleton.2 rfl⟩
  obtain ⟨hdistinct, hcount⟩ := distinct_agrees_with_groups .standard commands .standard
  have hrows : (select .standard catalog s.withDistinct).toOption.map (·.rows) =
      some [[.text "b"]] := by
    rw [hcatalog]
    decide +kernel
  have hcolumn : (select .standard catalog (Select.single (.expr (.column ⟨none, "v"⟩) none "v")
      ⟨"t", none⟩ [] none).withDistinct).toOption.map (·.rows) =
        some [[.text "b"], [.text "a"], [.null]] := by
    rw [hcatalog]
    decide +kernel
  refine ⟨hshows, ?_, ?_⟩
  · rw [hdistinct s refs hshows] at hrows
    exact hrows
  · obtain ⟨answer, hanswer, hcells⟩ := exists_ok_of_map hcolumn
    have hnumber := hcount ⟨none, "v"⟩ "v" "n" none ⟨"t", none⟩ [] none
    rw [hanswer] at hnumber
    rw [hnumber]
    refine congrArg some ?_
    dsimp only
    rw [hcells]
    decide +kernel

end Query
end SqlEngine
