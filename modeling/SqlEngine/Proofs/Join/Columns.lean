import SqlEngine.Proofs.Join.Loops
import SqlEngine.Proofs.Row.Shape
import SqlEngine.Proofs.Table.WellFormed

/-!
# Columns of joined rows

A row of a join is made of two rows that match, or of one row of either side with missing values for
the other side. In all three cases its names are those of the left side and behind them those of the
table that are not among them; so after any number of joins all rows have the same names.
-/
namespace SqlEngine.Join

/-- A row of a join comes from a left row and a right row, or from one of them alone. -/
theorem mem_joinRows {semantics : JoinSemantics} {left : List Row} {leftColumns : List String}
    {table : Table} {clause : JoinClause} {row : Row}
    (h : row ∈ joinRows semantics left leftColumns table clause) :
    (∃ l ∈ left, ∃ r ∈ table.rows, row = combine l r) ∨ (∃ l ∈ left, row = nullRight table l) ∨
      ∃ r ∈ table.rows, row = nullLeft leftColumns r := by
  have hinner : row ∈ innerRows (orientedPairs clause) left table.rows →
      ∃ l ∈ left, ∃ r ∈ table.rows, row = combine l r := by
    intro hrow
    obtain ⟨l, hl, hmatches⟩ := List.mem_flatMap.1 hrow
    obtain ⟨r, hr, rfl⟩ := List.mem_map.1 hmatches
    exact ⟨l, hl, r, (List.mem_filter.1 hr).1, rfl⟩
  have hleft : row ∈ leftRows (orientedPairs clause) left table →
      (∃ l ∈ left, ∃ r ∈ table.rows, row = combine l r) ∨ ∃ l ∈ left, row = nullRight table l := by
    intro hrow
    obtain ⟨l, hl, hmade⟩ := List.mem_flatMap.1 hrow
    rcases List.mem_append.1 hmade with hmatches | halone
    · obtain ⟨r, hr, rfl⟩ := List.mem_map.1 hmatches
      exact .inl ⟨l, hl, r, (List.mem_filter.1 hr).1, rfl⟩
    · split at halone
      · exact .inr ⟨l, hl, List.mem_singleton.1 halone⟩
      · cases halone
  rw [joinRows] at h
  split at h
  · rw [nestedLoop_eq_innerRows] at h
    exact .inl (hinner h)
  · rw [nestedLoop_eq_innerRows] at h
    exact .inl (hinner h)
  · rw [nestedLoop_eq_leftRows] at h
    rcases hleft h with hmatch | halone
    · exact .inl hmatch
    · exact .inr (.inl halone)
  · rw [rightJoin_eq_rightRows] at h
    obtain ⟨r, hr, hmade⟩ := List.mem_flatMap.1 h
    rcases List.mem_append.1 hmade with hmatches | halone
    · obtain ⟨l, hl, rfl⟩ := List.mem_map.1 hmatches
      exact .inl ⟨l, (List.mem_filter.1 hl).1, r, hr, rfl⟩
    · split at halone
      · exact .inr (.inr ⟨r, hr, List.mem_singleton.1 halone⟩)
      · cases halone
  · rw [fullJoin_eq_append] at h
    rcases List.mem_append.1 h with hrow | halone
    · rcases hleft hrow with hmatch | halone
      · exact .inl hmatch
      · exact .inr (.inl halone)
    · obtain ⟨r, hr, rfl⟩ := List.mem_map.1 halone
      exact .inr (.inr ⟨r, (List.mem_filter.1 hr).1, rfl⟩)

theorem joinColumns_eq_addNames (leftColumns : List String) (table : Table) :
    joinColumns leftColumns table = Row.addNames leftColumns table.columnNames := rfl

section Names

variable {leftColumns : List String} (hdistinct : Row.DistinctNames leftColumns)
include hdistinct

theorem names_combine {left right : Row} (hleft : left.names = leftColumns) :
    (combine left right).names = Row.addNames leftColumns right.names := by
  have hcopy : (Row.empty.merge left).names = leftColumns := by
    rw [Row.names_merge, hleft]
    exact (Row.addNames_nil leftColumns).trans (Row.firstNames_of_distinct hdistinct)
  rw [combine, Row.names_merge, hcopy]

theorem names_nullLeft (right : Row) :
    (nullLeft leftColumns right).names = Row.addNames leftColumns right.names := by
  rw [nullLeft, Row.names_merge, Row.names_nulls hdistinct]

/-- Every row of a join has the columns of the join, whichever sides it comes from. -/
theorem names_joinRows {semantics : JoinSemantics} {left : List Row} {table : Table}
    {clause : JoinClause} (hleft : ∀ row ∈ left, row.names = leftColumns)
    (hright : ∀ row ∈ table.rows, row.names = table.columnNames) :
    ∀ row ∈ joinRows semantics left leftColumns table clause,
      row.names = joinColumns leftColumns table := by
  intro row hrow
  rw [joinColumns_eq_addNames]
  rcases mem_joinRows hrow with ⟨l, hl, r, hr, rfl⟩ | ⟨l, hl, rfl⟩ | ⟨r, hr, rfl⟩
  · rw [names_combine hdistinct (hleft l hl), hright r hr]
  · rw [nullRight, Row.names_fillMissing, hleft l hl]
  · rw [names_nullLeft hdistinct, hright r hr]

end Names

end SqlEngine.Join
