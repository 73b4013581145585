import SqlEngine.Engine
import SqlEngine.Proofs.Query.Stages

/-!
# HAVING

A grouped query makes one result row of each group. A HAVING condition is looked at in the scope of
the group, after its result row is made, and keeps the row or drops it; what is kept is then freed
of repetitions and sorted as all rows would have been. A query that is not grouped makes its result
rows without a look at the HAVING clause, so the condition drops nothing there.
-/
namespace SqlEngine

/-- A query with a condition in the place of its HAVING clause. -/
def Select.withHaving (s : Select) (p : Condition) : Select := { s with having := some p }

namespace Query

/-- The rows of a query, a list for each of its groups. -/
def groupsOf (s : Select) (rows : List Row) : List (List Row) :=
  partition ((s.groupBy.getD []).map (·.name)) rows

/-- The result rows without repetitions, if these are not wanted, and in the order asked for. -/
def arranged (s : Select) (output : List Projected) : List Projected :=
  sortRows s.orderBy (if s.distinct then distinctRows output else output)

/-- Of groups with their result rows, the result rows for which a condition holds in the scope of
the group, unless its evaluation fails for one of them. -/
def keptBy (p : Condition) : List (List Row × Projected) → Except SqlError (List Projected)
  | [] => .ok []
  | (group, made) :: rest => do
    let holds ← p.holds (.group group made.row)
    let kept ← keptBy p rest
    return if holds then made :: kept else kept

/-- Of no result rows an empty answer is made. -/
theorem listing_arranged_nil (s : Select) : listing ((arranged s []).map (·.row)) = ⟨[], []⟩ := by
  have hrows : (if s.distinct then distinctRows [] else []) = [] := by
    split <;> rfl
  rw [arranged, hrows, sortRows]
  split
  · rfl
  · rw [List.mergeSort_nil]
    rfl

variable {semantics : JoinSemantics} {catalog : Catalog} {s : Select} {p : Condition}
  {items : List ListItem}

/-- Nothing is kept by a condition that holds nowhere. -/
theorem keptBy_never (hnever : ∀ scope, p.holds scope = .ok false)
    (made : List (List Row × Projected)) : keptBy p made = .ok [] := by
  induction made with
  | nil => rfl
  | cons first rest ih =>
    rw [keptBy, hnever, ih]
    rfl

/-- Behind the same stages a query with another HAVING clause differs in its result rows only. -/
theorem select_withHaving (q : Stages semantics catalog s) (p : Condition) :
    select semantics catalog (s.withHaving p) = (do
      let output ← outputRows (s.withHaving p) q.items q.rows
      return listing ((page s.offset s.limit (arranged s output)).map (·.row))) := by
  have hresult : resultRows semantics catalog (s.withHaving p) = (do
      let output ← outputRows (s.withHaving p) q.items q.rows
      return arranged s output) := by
    refine (bind_of_ok q.sources_eq _).trans ?_
    refine (bind_of_ok q.checked _).trans ?_
    refine (bind_of_ok q.items_eq _).trans ?_
    refine (bind_of_ok q.rows_eq _).trans ?_
    rw [outputRows]
    cases isGrouped (s.withHaving p) <;> rfl
  rw [select, hresult, bind_assoc]
  rfl

/-- A group for which a result row is made without a HAVING clause has the same one with the clause,
if the condition holds. -/
theorem projectGroup_withHaving (hnone : s.having = none) {group : List Row}
    {made : Option Projected} (h : projectGroup s items group = .ok made) :
    ∃ row, made = some row ∧ projectGroup (s.withHaving p) items group = (do
      let holds ← p.holds (.group group row.row)
      return if holds then some row else none) := by
  obtain ⟨row, hrow, h⟩ := bind_eq_ok.1 h
  rw [hnone] at h
  obtain ⟨keys, hkeys, h⟩ := bind_eq_ok.1 ((bind_of_ok rfl _).symm.trans h)
  cases h
  refine ⟨⟨row, keys⟩, rfl, (bind_of_ok hrow _).trans ?_⟩
  refine congrArg (p.holds (.group group row) >>= ·) (funext fun holds => ?_)
  cases holds with
  | true => exact bind_of_ok hkeys _
  | false => rfl

/-- Where each group has a result row without a HAVING clause, the clause keeps those of them whose
group satisfies the condition. -/
theorem mapM_withHaving (hnone : s.having = none) {groups : List (List Row)}
    {made : List (Option Projected)} (h : groups.mapM (projectGroup s items) = .ok made) :
    ∃ output, made = output.map some ∧
      (do return (← groups.mapM (projectGroup (s.withHaving p) items)).filterMap id) =
        keptBy p (groups.zip output) := by
  induction groups generalizing made with
  | nil =>
    cases h
    exact ⟨[], rfl, rfl⟩
  | cons group rest ih =>
    rw [List.mapM_cons] at h
    obtain ⟨first, hfirst, h⟩ := bind_eq_ok.1 h
    obtain ⟨others, hothers, h⟩ := bind_eq_ok.1 h
    cases h
    obtain ⟨row, rfl, hrow⟩ := projectGroup_withHaving (p := p) hnone hfirst
    obtain ⟨output, rfl, hrest⟩ := ih hothers
    refine ⟨row :: output, rfl, ?_⟩
    rw [List.zip_cons_cons, keptBy, ← hrest, List.mapM_cons, hrow]
    simp only [bind_assoc, pure_bind]
    refine congrArg (p.holds (.group group row.row) >>= ·) (funext fun holds => ?_)
    refine congrArg (_ >>= ·) (funext fun kept => ?_)
    cases holds <;> rfl

/-- With a HAVING clause a grouped query makes those of its result rows whose group satisfies the
condition. -/
theorem projectGroups_withHaving (hnone : s.having = none) {rows : List Row}
    {output : List Projected} (h : projectGroups s items rows = .ok output) :
    List.Forall₂ (fun group made => projectGroup s items group = .ok (some made))
        (groupsOf s rows) output ∧
      projectGroups (s.withHaving p) items rows = keptBy p ((groupsOf s rows).zip output) := by
  obtain ⟨made, hmade, h⟩ := bind_eq_ok.1 h
  cases h
  obtain ⟨output, rfl, hkept⟩ := mapM_withHaving (p := p) hnone hmade
  have houtput : (output.map some).filterMap id = output := by
    rw [List.filterMap_map]
    exact List.filterMap_some
  have hgroups := mapM_eq_ok.1 hmade
  rw [List.forall₂_map_right_iff] at hgroups
  rw [houtput]
  exact ⟨hgroups, hkept⟩

/-- A grouped query makes no result row under a condition that holds nowhere. -/
theorem projectGroups_never (hnever : ∀ scope, p.holds scope = .ok false) {rows : List Row}
    {output : List Projected} (h : projectGroups (s.withHaving p) items rows = .ok output) :
    output = [] := by
  obtain ⟨made, hmade, h⟩ := bind_eq_ok.1 h
  cases h
  refine List.filterMap_eq_nil_iff.2 fun row hrow => ?_
  obtain ⟨group, -, hgroup⟩ := exists_of_mem_mapM hmade hrow
  obtain ⟨result, -, hgroup⟩ := bind_eq_ok.1 hgroup
  have hdropped := (bind_of_ok (hnever (.group group result)) _).symm.trans hgroup
  cases hdropped
  rfl

/-- The HAVING clause of a query that is not grouped is not looked at. -/
theorem select_withHaving_of_not_grouped (hplain : isGrouped s = false) (p : Condition) :
    select semantics catalog (s.withHaving p) = select semantics catalog s := by
  have hwith : isGrouped (s.withHaving p) = false := hplain
  have hresult :
      resultRows semantics catalog (s.withHaving p) = resultRows semantics catalog s := by
    rw [resultRows, resultRows, hplain, hwith]
    rfl
  rw [select, hresult]
  rfl

/-- The condition that one is two, which holds nowhere. -/
def oneIsTwo : Condition := .compare .eq (.literal (.number 1)) (.literal (.number 2))

theorem oneIsTwo_never (scope : Scope) : oneIsTwo.holds scope = .ok false := by
  have hvalues : Comparison.eq.holds (.number 1) (.number 2) = false := by decide +kernel
  rw [oneIsTwo, Condition.holds, Expr.eval, Expr.evalOperand, Expr.eval]
  · exact congrArg Except.ok hvalues
  · intro name h
    cases h

/-- A HAVING condition in a grouped query keeps those of its result rows for which it holds in the
scope of their group. Each group has one result row; what is kept of them is freed of repetitions
and sorted as all of them are without the condition. So a condition that holds nowhere gives an
empty answer, whatever the groups are. -/
theorem having_keeps_groups (semantics : JoinSemantics) (catalog : Catalog) (s : Select)
    (p : Condition) (hgrouped : isGrouped s = true) (hnone : s.having = none)
    (hlimit : s.limit = none) (hoffset : s.offset = none) :
    (∀ answer, select semantics catalog s = .ok answer →
      ∃ q : Stages semantics catalog s,
        answer = listing ((arranged s q.output).map (·.row)) ∧
        List.Forall₂ (fun group made => projectGroup s q.items group = .ok (some made))
          (groupsOf s q.rows) q.output ∧
        select semantics catalog (s.withHaving p) = (do
          let kept ← keptBy p ((groupsOf s q.rows).zip q.output)
          return listing ((arranged s kept).map (·.row))) ∧
        ((∀ scope, p.holds scope = .ok false) →
          select semantics catalog (s.withHaving p) = .ok ⟨[], []⟩)) ∧
    ((∀ scope, p.holds scope = .ok false) → ∀ answer,
      select semantics catalog (s.withHaving p) = .ok answer → answer = ⟨[], []⟩) := by
  have hpage : ∀ rows : List Projected, page s.offset s.limit rows = rows := by
    intro rows
    rw [hlimit, hoffset]
    rfl
  have hgrouped' : isGrouped (s.withHaving p) = true := hgrouped
  refine ⟨fun answer h => ?_, fun hnever answer h => ?_⟩
  · obtain ⟨q, rfl⟩ := exists_stages h
    have houtput := q.output_eq
    rw [outputRows, if_pos hgrouped] at houtput
    obtain ⟨hmade, hkept⟩ := projectGroups_withHaving (p := p) hnone houtput
    have hselect := select_withHaving q p
    simp only [outputRows, if_pos hgrouped', hkept, hpage] at hselect
    refine ⟨q, ?_, hmade, hselect, fun hnever => ?_⟩
    · exact congrArg (fun rows => listing (rows.map (·.row))) (hpage _)
    · rw [hselect, keptBy_never hnever]
      exact congrArg Except.ok (listing_arranged_nil s)
  · obtain ⟨q, rfl⟩ := exists_stages h
    have houtput := q.output_eq
    rw [outputRows, if_pos hgrouped'] at houtput
    have hshown : q.shown = arranged s q.output := hpage _
    rw [hshown, projectGroups_never hnever houtput, listing_arranged_nil]

/-- A count of each colour has two rows, and none under a condition that holds nowhere. -/
theorem having_keeps_groups_colours :
    let table : Table := ⟨"t", [.plain "v" "TEXT"],
      [⟨[("v", .text "red")]⟩, ⟨[("v", .text "blue")]⟩, ⟨[("v", .text "red")]⟩], []⟩
    let catalog : Catalog := ⟨[("t", table)], ["t"]⟩
    let s : Select :=
      ⟨false, [.expr (.column ⟨none, "v"⟩) none "v", .expr (.call .count false [.star]) none "n"],
        ⟨"t", none⟩, [], none, some [⟨none, "v"⟩], none, [], none, none⟩
    isGrouped s = true ∧ s.having = none ∧ s.limit = none ∧ s.offset = none ∧
      (select .standard catalog s).toOption.map (·.rows) =
        some [[.text "red", .number 2], [.text "blue", .number 1]] ∧
      select .standard catalog (s.withHaving oneIsTwo) = .ok ⟨[], []⟩ := by
  intro table catalog s
  have hrows : (select .standard catalog s).toOption.map (·.rows) =
      some [[.text "red", .number 2], [.text "blue", .number 1]] := by decide +kernel
  obtain ⟨answer, hanswer, -⟩ := exists_ok_of_map hrows
  obtain ⟨q, -, -, -, hempty⟩ :=
    (having_keeps_groups .standard catalog s oneIsTwo rfl rfl rfl rfl).1 answer hanswer
  exact ⟨rfl, rfl, rfl, rfl, hrows, hempty oneIsTwo_never⟩

/-- Without GROUP BY and without an aggregate in the select list, a row is shown under a HAVING
condition that holds nowhere. -/
theorem having_ignored_for_rows :
    let engine := ((Engine.start .standard).execute
      "CREATE TABLE t (v INT); INSERT INTO t VALUES (1)").2
    let s : Select := ⟨false, [.expr (.column ⟨none, "v"⟩) none "v"], ⟨"t", none⟩, [], none, none,
      none, [], none, none⟩
    (∀ scope, oneIsTwo.holds scope = .ok false) ∧
      (select .standard engine.catalog (s.withHaving oneIsTwo)).toOption.map (·.rows) =
        some [[.number 1]] ∧
      (engine.outcomeOf "SELECT v FROM t HAVING 1 = 2").toOption.map (·.1.rowCount) = some 1 := by
  intro engine s
  rw [select_withHaving_of_not_grouped rfl]
  exact ⟨oneIsTwo_never, by decide +kernel⟩

end Query
end SqlEngine
