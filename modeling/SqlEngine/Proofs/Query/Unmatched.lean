import SqlEngine.Proofs.Join.Decomposition
import SqlEngine.Proofs.Query.Columns

/-!
# Left rows that match nothing

A left or full join keeps a left row that matches nothing and fills it up. What it fills up are the
names that the row lacks: where the row has a name in common with the table, its own cell stays and
is what the column of the table reads in it. So a query for the rows without a match finds them by a
column of the table only if their own cells of that name, if they have any, are missing too.
-/
namespace SqlEngine

namespace Join

/-- No row of the table matches. -/
def isAlone (pairs : List (String × String)) (table : Table) (left : Row) : Bool :=
  !table.rows.any (rowsMatch pairs left)

variable {pairs : List (String × String)} {table : Table}

theorem matchesOf_of_isAlone {left : Row} (h : isAlone pairs table left = true) :
    matchesOf pairs table.rows left = [] := by
  rw [matchesOf, List.map_eq_nil_iff, List.filter_eq_nil_iff]
  intro right hright hmatch
  rw [isAlone, List.any_eq_true.2 ⟨right, hright, hmatch⟩] at h
  cases h

/-- A left join makes of each left row its matches or, if it has none, one row. -/
theorem leftRows_eq (left : List Row) :
    leftRows pairs left table = left.flatMap fun l =>
      if isAlone pairs table l then [nullRight table l] else matchesOf pairs table.rows l := by
  have hrow : ∀ l, (matchesOf pairs table.rows l ++
      if !table.rows.any (rowsMatch pairs l) then [nullRight table l] else []) =
      if isAlone pairs table l then [nullRight table l] else matchesOf pairs table.rows l := by
    intro l
    by_cases halone : isAlone pairs table l = true
    · rw [matchesOf_of_isAlone halone, if_pos halone, List.nil_append]
      exact if_pos halone
    · rw [if_neg halone]
      refine (congrArg (matchesOf pairs table.rows l ++ ·) (if_neg halone)).trans ?_
      exact List.append_nil _
  simp only [leftRows, hrow]

theorem joinRows_left {clause : JoinClause} (hkind : clause.kind = .left) (left : List Row)
    (leftColumns : List String) (table : Table) :
    joinRows .standard left leftColumns table clause =
      leftRows (orientedPairs clause) left table := by
  have hcarried : carriedOut .standard clause.kind = .left := by rw [hkind]; rfl
  rw [joinRows, hcarried]
  exact nestedLoop_eq_leftRows left table

theorem joinRows_full {clause : JoinClause} (hkind : clause.kind = .full) (left : List Row)
    (leftColumns : List String) (table : Table) :
    joinRows .standard left leftColumns table clause =
      leftRows (orientedPairs clause) left table ++
        (unmatchedRight (orientedPairs clause) left table.rows).map (nullLeft leftColumns) := by
  have hcarried : carriedOut .standard clause.kind = .full := by rw [hkind]; rfl
  rw [joinRows, hcarried]
  exact fullJoin_eq_append leftColumns left table

/-- A row that is kept alone reads its own cell under the name of a column of the table, and is
missing there only if it has none or that one is missing. -/
theorem get?_nullRight {name : String} (h : table.hasColumn name = true) (left : Row) :
    (nullRight table left).get? name = some (left.getD name) := by
  obtain ⟨column, hcolumn⟩ := Option.isSome_iff_exists.1 h
  have hname : table.columnNames.any (Text.sameName · name) = true :=
    List.any_eq_true.2
      ⟨column.name, Table.column?_mem hcolumn, Table.sameName_of_column? hcolumn⟩
  rw [nullRight, Row.get?_fillMissing, if_pos hname, Row.getD]
  cases left.get? name <;> rfl

theorem ne_null_of_looselyEqual {v w : Value} (h : (v.looselyEqual? w == some true) = true) :
    w.isNull = false := by
  cases w with
  | null => cases v <;> simp [Value.looselyEqual?] at h
  | number x => rfl
  | text s => rfl

/-- In the row of a pair that matches, a column of the right side that was compared is there. -/
theorem isNull_getD_combine {left right : Row} (hdistinct : Row.DistinctNames right.names)
    (hmatch : rowsMatch pairs left right = true) {name : String}
    (h : ∃ pair ∈ pairs, Text.sameName pair.2 name = true) :
    ((combine left right).getD name).isNull = false := by
  obtain ⟨⟨l, r⟩, hpair, hname⟩ := h
  have hequal := List.all_eq_true.1 hmatch (l, r) hpair
  dsimp only at hequal hname
  have hread : right.get? r = right.get? name := right.get?_congr hname
  split at hequal
  · next a b hleft hright =>
    have hcell : (combine left right).getD name = b := by
      rw [Row.getD, combine, Row.get?_merge hdistinct, ← hread, hright]
      rfl
    rw [hcell]
    exact ne_null_of_looselyEqual hequal
  · cases hequal

end Join

namespace Query

open Join

/-- The condition that a column is missing. -/
def isMissing (ref : ColumnRef) : Condition := .isNull (.column ref) false

theorem filterRows_isMissing (ref : ColumnRef) (rows : List Row) :
    filterRows (some (isMissing ref)) rows =
      .ok (rows.filter fun row => (row.getD ref.name).isNull) := by
  refine filterRows_eq fun row _ => ?_
  have hread : (Expr.column ref).eval (.row row) = .ok (row.getD ref.name) := by
    rw [Expr.eval]
    rfl
  rw [Condition.clauseHolds, isMissing, Condition.holds, hread]
  exact congrArg Except.ok (Bool.bne_false _)

/-- Of the rows of a left join, a column that was compared is missing only in those that were kept
alone. -/
theorem filter_leftRows {pairs : List (String × String)} {table : Table} {name : String}
    (hdistinct : ∀ r ∈ table.rows, Row.DistinctNames r.names)
    (hcolumn : table.hasColumn name = true)
    (hcompared : ∃ pair ∈ pairs, Text.sameName pair.2 name = true) (left : List Row) :
    (leftRows pairs left table).filter (fun row => (row.getD name).isNull) =
      (left.filter fun l => isAlone pairs table l && (l.getD name).isNull).map
        (nullRight table) := by
  have hrow : ∀ l, (if isAlone pairs table l then [nullRight table l]
      else matchesOf pairs table.rows l).filter (fun row => (row.getD name).isNull) =
      if isAlone pairs table l && (l.getD name).isNull then [nullRight table l] else [] := by
    intro l
    by_cases halone : isAlone pairs table l = true
    · have hread : (nullRight table l).getD name = l.getD name := by
        rw [Row.getD, get?_nullRight hcolumn, Option.getD_some]
      rw [if_pos halone, halone, Bool.true_and, List.filter_singleton, hread, cond_eq_ite]
    · have hnone : (matchesOf pairs table.rows l).filter
          (fun row => (row.getD name).isNull) = [] := by
        rw [List.filter_eq_nil_iff]
        intro row hmade
        obtain ⟨r, hr, rfl⟩ := List.mem_map.1 hmade
        obtain ⟨hrows, hmatch⟩ := List.mem_filter.1 hr
        rw [isNull_getD_combine (hdistinct r hrows) hmatch hcompared]
        exact Bool.false_ne_true
      rw [if_neg halone, hnone, Bool.eq_false_iff.2 halone]
      rfl
  rw [leftRows_eq, List.filter_flatMap]
  simp only [hrow]
  exact flatMap_ite_singleton _ (nullRight table) left

/-- A left or full join keeps each left row that matches nothing, in its place, as one row, in which
every column of the table reads what the left row has under that name: its own cell, or nothing if
it has none. A full join has behind them the rows of the table that no left row matches. So behind
any chain of joins, where a left join has compared a column of its table, the rows in which that
column is missing are those kept for the left rows without a match whose own cell of that name is
missing or not there. -/
theorem leftOuter_unmatched (left : List Row) (leftColumns : List String) (table : Table)
    (clause : JoinClause) (hdistinct : ∀ r ∈ table.rows, Row.DistinctNames r.names)
    (houter : clause.kind = .left ∨ clause.kind = .full) :
    let pairs := orientedPairs clause
    (joinRows .standard left leftColumns table clause =
      (left.flatMap fun l => if isAlone pairs table l then [nullRight table l]
        else (table.rows.filter (rowsMatch pairs l)).map (combine l)) ++
      if clause.kind = .full then (unmatchedRight pairs left table.rows).map (nullLeft leftColumns)
      else []) ∧
    (∀ l, ∀ column ∈ table.columnNames,
      (nullRight table l).get? column = some ((l.get? column).getD .null)) ∧
    ∀ (base : Table) (joined : List (JoinClause × Table)) (ref : ColumnRef), clause.kind = .left →
      joinedRows .standard base joined = (left, leftColumns) → table.hasColumn ref.name = true →
      (∃ pair ∈ pairs, Text.sameName pair.2 ref.name = true) →
      filterRows (some (isMissing ref))
          (joinedRows .standard base (joined ++ [(clause, table)])).1 =
        .ok ((left.filter fun l => isAlone pairs table l && (l.getD ref.name).isNull).map
          (nullRight table)) := by
  intro pairs
  refine ⟨?_, ?_, ?_⟩
  · rcases houter with hkind | hkind
    · have hother : clause.kind ≠ .full := by rw [hkind]; exact JoinKind.noConfusion
      rw [joinRows_left hkind, leftRows_eq, if_neg hother, List.append_nil]
      rfl
    · rw [joinRows_full hkind, leftRows_eq, if_pos hkind]
      rfl
  · intro l column hcolumn
    refine get?_nullRight ?_ l
    obtain ⟨c, hc, rfl⟩ := List.mem_map.1 hcolumn
    exact List.find?_isSome.2 ⟨c, hc, Text.sameName_refl c.name⟩
  · intro base joined ref hkind hjoined hcolumn hcompared
    have hlast : (joinedRows .standard base (joined ++ [(clause, table)])).1 =
        leftRows pairs left table := by
      rw [joinedRows_concat, hjoined]
      exact joinRows_left hkind left leftColumns table
    rw [hlast, filterRows_isMissing, filter_leftRows hdistinct hcolumn hcompared]

/-- An employee without a department is found by the department that is missing. -/
theorem leftOuter_unmatched_department :
    let emp : Table := ⟨"emp", [.plain "name" "TEXT", .plain "dept" "TEXT"],
      [⟨[("name", .text "Ann"), ("dept", .text "1")]⟩, ⟨[("name", .text "Dee"), ("dept", .null)]⟩],
      []⟩
    let dept : Table := ⟨"dept", [.plain "id" "TEXT", .plain "title" "TEXT"],
      [⟨[("id", .text "1"), ("title", .text "Sales")]⟩], []⟩
    let clause : JoinClause :=
      ⟨.left, ⟨"dept", none⟩, [(⟨some "emp", "dept"⟩, ⟨some "dept", "id"⟩)]⟩
    (∀ r ∈ dept.rows, Row.DistinctNames r.names) ∧ dept.hasColumn "id" = true ∧
      (∃ pair ∈ orientedPairs clause, Text.sameName pair.2 "id" = true) ∧
      filterRows (some (isMissing ⟨some "dept", "id"⟩))
          (joinedRows .standard emp [(clause, dept)]).1 =
        .ok [⟨[("name", .text "Dee"), ("dept", .null), ("id", .null), ("title", .null)]⟩] := by
  intro emp dept clause
  have hdistinct : ∀ r ∈ dept.rows, Row.DistinctNames r.names := by
    unfold Row.DistinctNames
    decide +kernel
  have hcolumn : dept.hasColumn "id" = true := by decide +kernel
  have hcompared : ∃ pair ∈ orientedPairs clause, Text.sameName pair.2 "id" = true := by
    decide +kernel
  have hrows : (emp.rows.filter fun l => isAlone (orientedPairs clause) dept l &&
      (l.getD "id").isNull).map (nullRight dept) =
        [⟨[("name", .text "Dee"), ("dept", .null), ("id", .null), ("title", .null)]⟩] := by
    decide +kernel
  obtain ⟨-, -, hquery⟩ :=
    leftOuter_unmatched emp.rows emp.columnNames dept clause hdistinct (.inl rfl)
  have hfound := hquery emp [] ⟨some "dept", "id"⟩ rfl rfl hcolumn hcompared
  rw [hrows] at hfound
  exact ⟨hdistinct, hcolumn, hcompared, hfound⟩

/-- A left row without a match shows its own cell in the column that it has in common with the
table, and is not found by that column. -/
theorem leftJoin_shared_column_not_missing :
    let row : Row := ⟨[("k", .text "2"), ("v", .text "y")]⟩
    let kept : Row := ⟨[("k", .text "2"), ("v", .text "y"), ("w", .null)]⟩
    let table : Table := ⟨"b", [.plain "k" "TEXT", .plain "w" "TEXT"],
      [⟨[("k", .text "1"), ("w", .text "p")]⟩], []⟩
    let clause : JoinClause := ⟨.left, ⟨"b", none⟩, [(⟨some "a", "k"⟩, ⟨some "b", "k"⟩)]⟩
    isAlone (orientedPairs clause) table row = true ∧ "k" ∈ table.columnNames ∧
      joinRows .standard [row] ["k", "v"] table clause = [kept] ∧ kept.getD "k" ≠ .null ∧
      filterRows (some (isMissing ⟨some "b", "k"⟩))
        (joinRows .standard [row] ["k", "v"] table clause) = .ok [] := by
  intro row kept table clause
  have hjoin : joinRows .standard [row] ["k", "v"] table clause = [kept] := by decide +kernel
  have hnone : [kept].filter (fun row => (row.getD "k").isNull) = [] := by decide +kernel
  refine ⟨by decide +kernel, by decide +kernel, hjoin, by decide +kernel, ?_⟩
  rw [hjoin, filterRows_isMissing, hnone]

end Query
end SqlEngine
