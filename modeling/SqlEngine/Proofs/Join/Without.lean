import SqlEngine.Proofs.Join.Columns
import SqlEngine.Proofs.Join.Loops
import SqlEngine.Proofs.Row.Without

/-!
# Joins without a column

A join whose condition does not name a column makes the same rows whether the tables have the column
or not, apart from the cells under its name: the same rows match, and the joined rows, those with
missing values included, are put together cell by cell.
-/
namespace SqlEngine

/-- The table without a column and its cells. -/
def Table.without (column : String) (table : Table) : Table :=
  { table with
    columns := table.columns.filter fun own => Text.isOther column own.name
    rows := table.rows.map (·.without column) }

namespace Table

variable {column : String}

theorem columnNames_without (table : Table) :
    (table.without column).columnNames = table.columnNames.filter (Text.isOther column) := by
  rw [columnNames, columnNames, List.filter_map]
  rfl

/-- Other columns are there or not as before. -/
theorem hasColumn_without {name : String} (h : Text.isOther column name = true) (table : Table) :
    (table.without column).hasColumn name = table.hasColumn name := by
  simp only [hasColumn, column?, without, List.find?_filter, Bool.decide_and, Bool.decide_eq_true,
    Text.isOther_and_sameName h]

end Table

/-- The join names other columns only. -/
def JoinClause.Avoids (column : String) (clause : JoinClause) : Prop :=
  ∀ pair ∈ clause.pairs, Text.isOther column pair.1.name ∧ Text.isOther column pair.2.name

namespace Join

variable {column : String} {pairs : List (String × String)}

theorem orientedPairs_avoid {clause : JoinClause} (h : clause.Avoids column) :
    ∀ pair ∈ orientedPairs clause, Text.isOther column pair.1 ∧ Text.isOther column pair.2 := by
  intro pair hpair
  obtain ⟨⟨a, b⟩, hmem, rfl⟩ := List.mem_map.1 hpair
  obtain ⟨ha, hb⟩ := h _ hmem
  dsimp only
  split
  · exact ⟨hb, ha⟩
  · exact ⟨ha, hb⟩

theorem without_combine (left right : Row) :
    (combine left right).without column =
      combine (left.without column) (right.without column) := by
  rw [combine, combine, Row.without_merge, Row.without_merge]
  rfl

theorem without_nullLeft (leftColumns : List String) (right : Row) :
    (nullLeft leftColumns right).without column =
      nullLeft (leftColumns.filter (Text.isOther column)) (right.without column) := by
  rw [nullLeft, nullLeft, Row.without_merge, Row.without_nulls]

theorem without_nullRight (table : Table) (left : Row) :
    (nullRight table left).without column =
      nullRight (table.without column) (left.without column) := by
  rw [nullRight, nullRight, Row.without_fillMissing, Table.columnNames_without]

section Pairs

variable (h : ∀ pair ∈ pairs, Text.isOther column pair.1 ∧ Text.isOther column pair.2)
include h

/-- The same rows match. -/
theorem rowsMatch_without (left right : Row) :
    rowsMatch pairs (left.without column) (right.without column) = rowsMatch pairs left right := by
  rw [rowsMatch, rowsMatch, Bool.eq_iff_iff, List.all_eq_true, List.all_eq_true]
  refine forall₂_congr fun pair hpair => ?_
  obtain ⟨l, r⟩ := pair
  obtain ⟨hl, hr⟩ := h _ hpair
  dsimp only at hl hr ⊢
  rw [Row.get?_without hl, Row.get?_without hr]

theorem any_rowsMatch_without (left : Row) (right : List Row) :
    (right.map (·.without column)).any (rowsMatch pairs (left.without column)) =
      right.any (rowsMatch pairs left) := by
  rw [List.any_map]
  exact congrArg right.any (funext (rowsMatch_without h left))

theorem any_rowsMatch_right_without (left : List Row) (right : Row) :
    (left.map (·.without column)).any (rowsMatch pairs · (right.without column)) =
      left.any (rowsMatch pairs · right) := by
  rw [List.any_map]
  exact congrArg left.any (funext fun row => rowsMatch_without h row right)

theorem matchesOf_without (right : List Row) (left : Row) :
    matchesOf pairs (right.map (·.without column)) (left.without column) =
      (matchesOf pairs right left).map (·.without column) := by
  have hmatch : rowsMatch pairs (left.without column) ∘ (·.without column) = rowsMatch pairs left :=
    funext (rowsMatch_without h left)
  rw [matchesOf, matchesOf, List.filter_map, hmatch, List.map_map, List.map_map]
  exact List.map_congr_left fun row _ => (without_combine left row).symm

theorem matchesOfRight_without (left : List Row) (right : Row) :
    matchesOfRight pairs (left.map (·.without column)) (right.without column) =
      (matchesOfRight pairs left right).map (·.without column) := by
  have hmatch : (rowsMatch pairs · (right.without column)) ∘ (·.without column) =
      (rowsMatch pairs · right) := funext fun row => rowsMatch_without h row right
  rw [matchesOfRight, matchesOfRight, List.filter_map, hmatch, List.map_map, List.map_map]
  exact List.map_congr_left fun row _ => (without_combine row right).symm

theorem innerRows_without (left right : List Row) :
    innerRows pairs (left.map (·.without column)) (right.map (·.without column)) =
      (innerRows pairs left right).map (·.without column) := by
  rw [innerRows, innerRows, List.flatMap_map, List.map_flatMap]
  exact congrArg left.flatMap (funext fun row => matchesOf_without h right row)

theorem leftRows_without (left : List Row) (table : Table) :
    leftRows pairs (left.map (·.without column)) (table.without column) =
      (leftRows pairs left table).map (·.without column) := by
  rw [leftRows, leftRows, List.flatMap_map, List.map_flatMap]
  refine congrArg left.flatMap (funext fun row => ?_)
  rw [List.map_append, apply_ite (List.map _), List.map_singleton, without_nullRight]
  exact congrArg₂ (· ++ ·) (matchesOf_without h table.rows row)
    (by rw [Table.without, any_rowsMatch_without h]; rfl)

theorem rightRows_without (leftColumns : List String) (left right : List Row) :
    rightRows pairs (leftColumns.filter (Text.isOther column)) (left.map (·.without column))
        (right.map (·.without column)) =
      (rightRows pairs leftColumns left right).map (·.without column) := by
  rw [rightRows, rightRows, List.flatMap_map, List.map_flatMap]
  refine congrArg right.flatMap (funext fun row => ?_)
  rw [List.map_append, apply_ite (List.map _), List.map_singleton, without_nullLeft,
    matchesOfRight_without h, any_rowsMatch_right_without h]
  rfl

theorem unmatchedRight_without (left right : List Row) :
    unmatchedRight pairs (left.map (·.without column)) (right.map (·.without column)) =
      (unmatchedRight pairs left right).map (·.without column) := by
  rw [unmatchedRight, unmatchedRight, List.filter_map]
  refine congrArg (List.map _) (congrArg (right.filter ·) (funext fun row => ?_))
  exact congrArg (!·) (any_rowsMatch_right_without h left row)

end Pairs

/-- A join that names other columns makes the same rows, apart from the cells under the name. -/
theorem joinRows_without {clause : JoinClause} (h : clause.Avoids column)
    (semantics : JoinSemantics) (left : List Row) (leftColumns : List String) (table : Table) :
    joinRows semantics (left.map (·.without column)) (leftColumns.filter (Text.isOther column))
        (table.without column) clause =
      (joinRows semantics left leftColumns table clause).map (·.without column) := by
  have hpairs := orientedPairs_avoid h
  have hrows : (table.without column).rows = table.rows.map (·.without column) := rfl
  rw [joinRows, joinRows]
  cases carriedOut semantics clause.kind with
  | inner | cross =>
    rw [nestedLoop_eq_innerRows, nestedLoop_eq_innerRows, hrows, innerRows_without hpairs]
  | left => rw [nestedLoop_eq_leftRows, nestedLoop_eq_leftRows, leftRows_without hpairs]
  | right =>
    rw [rightJoin_eq_rightRows, rightJoin_eq_rightRows, hrows, rightRows_without hpairs]
  | full =>
    rw [fullJoin_eq_append, fullJoin_eq_append, List.map_append, leftRows_without hpairs, hrows,
      unmatchedRight_without hpairs, List.map_map, List.map_map]
    refine congrArg (_ ++ ·) (List.map_congr_left fun row _ => ?_)
    exact (without_nullLeft leftColumns row).symm

theorem joinColumns_without (leftColumns : List String) (table : Table) :
    joinColumns (leftColumns.filter (Text.isOther column)) (table.without column) =
      (joinColumns leftColumns table).filter (Text.isOther column) := by
  rw [joinColumns_eq_addNames, joinColumns_eq_addNames, Table.columnNames_without,
    Row.filter_addNames]

end Join
end SqlEngine
