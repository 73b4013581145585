import SqlEngine.Proofs.Table.Numbering

/-!
# The cells of inserted rows

What an insertion writes is told column by column. In a numbered column the rows get, from the first
to the last, what they were given, with the next number in the place of every missing value; in any
other column they get just what they were given. The counter of a numbered column moves by as many
numbers as were put there, and no other counter moves.
-/
namespace SqlEngine.Table

/-- The cells of a column, with the numbers that follow the last one in the place of missing
values. -/
def numberCells (last : Nat) : List Value → List Value
  | [] => []
  | v :: rest =>
    if v.isNull then .ofNat (last + 1) :: numberCells (last + 1) rest
    else v :: numberCells last rest

/-- What a column of inserted rows holds, by what the rows were given there. -/
def cellsPut (table : Table) (column : String) (given : List Value) : List Value :=
  if column ∈ table.numberedColumns then numberCells (table.counter column) given else given

/-- How many numbers are given out in a column to rows that were given some values there. -/
def numbersTaken (table : Table) (column : String) (given : List Value) : Nat :=
  if column ∈ table.numberedColumns then given.countP Value.isNull else 0

variable {table : Table} {column : String}

/-- Counters of other columns than the numbered ones stay. -/
theorem counterOf_numberRow_of_not_mem {columns : List String} (h : column ∉ columns) (row : Row)
    (counters : List (String × Nat)) :
    counterOf (numberRow columns row counters).2 column = counterOf counters column := by
  induction columns generalizing row counters with
  | nil => rfl
  | cons first rest ih =>
    obtain ⟨hfirst, hrest⟩ := List.ne_and_not_mem_of_not_mem_cons h
    rw [numberRow]
    split
    · rw [ih hrest, counterOf_countUp, if_neg hfirst.symm, Nat.add_zero]
    · exact ih hrest row counters

/-- One row more: its cell, and the counter behind it. -/
theorem cellsPut_insertRow (hown : OwnName table.numberedColumns column) (row : Row)
    (given : List Value) :
    table.cellsPut column (row.getD column :: given) =
        (numberRow table.numberedColumns row table.counters).1.getD column ::
          (table.insertRow row).cellsPut column given ∧
      (table.insertRow row).counter column =
        table.counter column + table.numbersTaken column [row.getD column] := by
  have hspec := numberRow_spec hown row table.counters
  have hcounter : (table.insertRow row).counter column =
      counterOf (numberRow table.numberedColumns row table.counters).2 column := rfl
  have hnext : (table.insertRow row).cellsPut column given =
      if column ∈ table.numberedColumns then
        numberCells ((table.insertRow row).counter column) given else given := rfl
  rw [hnext, hcounter, cellsPut, numbersTaken]
  by_cases hnumbered : column ∈ table.numberedColumns
  · rw [if_pos hnumbered, if_pos hnumbered, if_pos hnumbered, numberCells]
    by_cases hnull : (row.getD column).isNull = true
    · rw [if_pos ⟨hnumbered, hnull⟩] at hspec
      rw [if_pos hnull, hspec.1, hspec.2, List.countP_singleton, if_pos hnull]
      exact ⟨rfl, rfl⟩
    · rw [if_neg fun h => hnull h.2] at hspec
      rw [if_neg hnull, hspec.1, hspec.2, List.countP_singleton, if_neg hnull]
      exact ⟨rfl, rfl⟩
  · rw [if_neg fun h => hnumbered h.1] at hspec
    rw [if_neg hnumbered, if_neg hnumbered, if_neg hnumbered, hspec.1, hspec.2]
    exact ⟨rfl, rfl⟩

theorem numbersTaken_cons (v : Value) (given : List Value) :
    table.numbersTaken column (v :: given) =
      table.numbersTaken column [v] + table.numbersTaken column given := by
  unfold numbersTaken
  split
  · rw [List.countP_cons, List.countP_singleton, Nat.add_comm]
  · rfl

/-- Rows that are inserted stand behind those that are there, and hold what they were given or the
numbers that were put in its place. -/
theorem exists_added (table : Table) (rows : List Row) :
    ∃ added, (table.insertRows rows).rows = table.rows ++ added ∧ added.length = rows.length ∧
      ∀ column, OwnName table.numberedColumns column →
        added.map (·.getD column) = table.cellsPut column (rows.map (·.getD column)) := by
  induction rows generalizing table with
  | nil =>
    refine ⟨[], (List.append_nil _).symm, rfl, fun column _ => ?_⟩
    rw [cellsPut]
    split <;> rfl
  | cons row rest ih =>
    obtain ⟨added, hrows, hlength, hcells⟩ := ih (table.insertRow row)
    refine ⟨(numberRow table.numberedColumns row table.counters).1 :: added,
      hrows.trans (List.append_assoc _ [_] added), congrArg (· + 1) hlength, ?_⟩
    intro column hown
    rw [List.map_cons, List.map_cons, hcells column hown, (cellsPut_insertRow hown row _).1]

/-- The counter of a column moves by the numbers that are given out there. -/
theorem counter_insertRows (hown : column ∈ table.numberedColumns →
      OwnName table.numberedColumns column) (rows : List Row) :
    (table.insertRows rows).counter column =
      table.counter column + table.numbersTaken column (rows.map (·.getD column)) := by
  induction rows generalizing table with
  | nil =>
    rw [numbersTaken]
    split <;> rfl
  | cons row rest ih =>
    have hfirst : (table.insertRow row).counter column =
        table.counter column + table.numbersTaken column [row.getD column] := by
      by_cases hnumbered : column ∈ table.numberedColumns
      · exact (cellsPut_insertRow (hown hnumbered) row []).2
      · rw [numbersTaken, if_neg hnumbered]
        exact counterOf_numberRow_of_not_mem hnumbered row table.counters
    have hrest : ((table.insertRow row).insertRows rest).counter column =
        (table.insertRow row).counter column +
          table.numbersTaken column (rest.map (·.getD column)) := ih hown
    rw [List.map_cons, numbersTaken_cons, ← Nat.add_assoc, ← hfirst]
    exact hrest

end SqlEngine.Table
