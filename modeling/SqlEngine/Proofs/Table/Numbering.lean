import SqlEngine.Proofs.Table.WellFormed

/-!
# The numbers that a table gives out

A row that is inserted without a value in a numbered column gets the next number there, and the
counter of the column moves by one; where the row has a value, neither the cell nor the counter
changes. So the numbers that some rows get in a column, one row after another, go on from the
counter without a gap, and the counter is the last of them.
-/
namespace SqlEngine.Table

/-- What was put into a column of a row that came without a value there. -/
def numberPut (column : String) (given stored : Row) : Option Value :=
  if (given.getD column).isNull && !(stored.getD column).isNull then some (stored.getD column)
  else none

/-- What was put into a column when rows were added behind others. -/
def numbersPut (column : String) (given before after : List Row) : List Value :=
  (given.zip (after.drop before.length)).filterMap fun pair => numberPut column pair.1 pair.2

/-- Of the given columns none but the column itself has its name. -/
def OwnName (columns : List String) (column : String) : Prop :=
  ∀ other ∈ columns, Text.sameName other column = true → other = column

theorem OwnName.mono {columns others : List String} {column : String} (h : OwnName others column)
    (hle : columns ⊆ others) : OwnName columns column :=
  fun other hother => h other (hle hother)

/-- Among distinct names each is its own. -/
theorem OwnName.of_distinct {names columns : List String} {column : String}
    (h : Row.DistinctNames names) (hle : columns ⊆ names) (hcolumn : column ∈ names) :
    OwnName columns column := by
  intro other hother hsame
  exact h.eq_of_sameName (hle hother) hcolumn hsame

/-- Numbering a row changes a column of it only if the column is numbered and the row has no value
there: then the cell gets the next number. -/
theorem numberRow_spec {columns : List String} {column : String} (hown : OwnName columns column)
    (row : Row) (counters : List (String × Nat)) :
    let result := numberRow columns row counters
    if column ∈ columns ∧ (row.getD column).isNull = true then
      result.1.getD column = .ofNat (counterOf counters column + 1) ∧
        counterOf result.2 column = counterOf counters column + 1
    else
      result.1.getD column = row.getD column ∧
        counterOf result.2 column = counterOf counters column := by
  induction columns generalizing row counters with
  | nil =>
    rw [if_neg (by simp)]
    exact ⟨rfl, rfl⟩
  | cons first rest ih =>
    have hrest : OwnName rest column := hown.mono (List.subset_cons_self first rest)
    have hmem : first ≠ column → (column ∈ first :: rest ↔ column ∈ rest) := by
      intro hne
      rw [List.mem_cons, or_iff_right hne.symm]
    rw [numberRow]
    by_cases hnull : (row.getD first).isNull = true
    · rw [if_pos hnull]
      dsimp only
      have hnext := ih hrest (row.set first (.ofNat (counterOf counters first + 1)))
        (countUp first counters)
      rw [Row.getD_set, counterOf_countUp] at hnext
      by_cases hname : first = column
      · subst hname
        -- the cell is filled now, so the columns behind this one leave it alone
        rw [if_pos (Text.sameName_refl first), if_pos rfl, if_neg fun h => Bool.noConfusion h.2]
          at hnext
        rw [if_pos ⟨List.mem_cons_self, hnull⟩]
        exact hnext
      · have hother : Text.sameName first column = false :=
          Bool.eq_false_iff.2 fun hsame => hname (hown first List.mem_cons_self hsame)
        rw [hother, if_neg Bool.false_ne_true, if_neg hname, Nat.add_zero] at hnext
        simp only [hmem hname]
        exact hnext
    · rw [if_neg hnull]
      have hnext := ih hrest row counters
      by_cases hname : first = column
      · subst hname
        rw [if_neg fun h => hnull h.2] at hnext ⊢
        exact hnext
      · simp only [hmem hname]
        exact hnext

/-- Each row that is inserted gets the next number in a column, or none; the counter tells which. -/
theorem numberPut_numberRow {columns : List String} {column : String}
    (hown : OwnName columns column) (row : Row) (counters : List (String × Nat)) :
    let result := numberRow columns row counters
    (numberPut column row result.1 = some (.ofNat (counterOf counters column + 1)) ∧
      counterOf result.2 column = counterOf counters column + 1) ∨
    (numberPut column row result.1 = none ∧
      counterOf result.2 column = counterOf counters column) := by
  intro result
  have hspec := numberRow_spec hown row counters
  split at hspec
  · next hnumbered =>
    obtain ⟨hcell, hcounter⟩ := hspec
    refine .inl ⟨?_, hcounter⟩
    rw [numberPut, hcell, hnumbered.2]
    rfl
  · obtain ⟨hcell, hcounter⟩ := hspec
    refine .inr ⟨?_, hcounter⟩
    rw [numberPut, hcell, Bool.and_not_self]
    rfl

variable {table : Table}

theorem numbersPut_same (column : String) (given rows : List Row) :
    numbersPut column given rows rows = [] := by
  rw [numbersPut, List.drop_length, List.zip_nil_right, List.filterMap_nil]

/-- Rows that are inserted stand behind those that were there. -/
theorem rows_prefix_insertRows (table : Table) (rows : List Row) :
    table.rows <+: (table.insertRows rows).rows := by
  induction rows generalizing table with
  | nil => exact List.prefix_rfl
  | cons row rest ih => exact (List.prefix_append _ _).trans (ih (table.insertRow row))

theorem numbersPut_cons (column : String) (row stored : Row) (rest before behind : List Row) :
    numbersPut column (row :: rest) before (before ++ stored :: behind) =
      (numberPut column row stored).toList ++
        numbersPut column rest (before ++ [stored]) (before ++ stored :: behind) := by
  have hfirst : (before ++ stored :: behind).drop before.length = stored :: behind :=
    List.drop_left
  have hbehind : (before ++ stored :: behind).drop (before ++ [stored]).length = behind := by
    rw [List.append_cons before stored behind]
    exact List.drop_left
  rw [numbersPut, numbersPut, hfirst, hbehind, List.zip_cons_cons, List.filterMap_cons]
  dsimp only
  cases numberPut column row stored <;> rfl

/-- The numbers that inserted rows get in a column go on from its counter without a gap, and the
counter is the last of them. -/
theorem numbersPut_insertRows {column : String} (hown : OwnName table.numberedColumns column)
    (rows : List Row) :
    ∃ count, (table.insertRows rows).counter column = table.counter column + count ∧
      numbersPut column rows table.rows (table.insertRows rows).rows =
        (List.range' (table.counter column + 1) count).map .ofNat := by
  induction rows generalizing table with
  | nil => exact ⟨0, rfl, numbersPut_same column [] table.rows⟩
  | cons row rest ih =>
    have hsame : OwnName (table.insertRow row).numberedColumns column := hown
    obtain ⟨count, hcounter, hnumbers⟩ := ih hsame
    obtain ⟨behind, hbehind⟩ := rows_prefix_insertRows (table.insertRow row) rest
    have hrows : (table.insertRows (row :: rest)).rows =
        table.rows ++ (numberRow table.numberedColumns row table.counters).1 :: behind := by
      refine hbehind.symm.trans ?_
      exact List.append_assoc table.rows [_] behind
    have hrest : numbersPut column rest
        (table.rows ++ [(numberRow table.numberedColumns row table.counters).1])
        (table.insertRows (row :: rest)).rows =
          (List.range' ((table.insertRow row).counter column + 1) count).map .ofNat := hnumbers
    have hafter : (table.insertRows (row :: rest)).counter column =
        (table.insertRow row).counter column + count := hcounter
    rw [hrows] at hrest
    rw [hafter, hrows, numbersPut_cons, hrest]
    rcases numberPut_numberRow hown row table.counters with ⟨hput, hmoved⟩ | ⟨hput, hmoved⟩
    · have hnext : (table.insertRow row).counter column = table.counter column + 1 := hmoved
      rw [hput, hnext]
      exact ⟨count + 1, by omega, rfl⟩
    · have hnext : (table.insertRow row).counter column = table.counter column := hmoved
      rw [hput, hnext]
      exact ⟨count, rfl, rfl⟩

end SqlEngine.Table
