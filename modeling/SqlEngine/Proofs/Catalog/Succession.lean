import SqlEngine.Proofs.Catalog.Insertion
import SqlEngine.Proofs.Table.Numbering

/-!
# What becomes of a table

A statement that succeeds is looked at here from one table. If there is a table of the name
afterwards, it was created by the statement, or it is the one before with the rows of an INSERT
added, or it is the one before with its counters as they were and with all the columns that it had.
No other statement comes near the counters.
-/
namespace SqlEngine

namespace Change

/-- The rows that the groups of an INSERT make, before they are numbered. -/
def givenRows (catalog : Catalog) (s : Insert) : Except SqlError (List Row) := do
  rowsOfGroups (← catalog.get s.table) s

end Change

/-- The rows that a statement gives to the table of a name, before they are numbered. -/
def Statement.rowsGiven (catalog : Catalog) (name : String) : Statement → List Row
  | insert s =>
    if Text.lower s.table = Text.lower name then
      (Change.givenRows catalog s).toOption.getD []
    else []
  | _ => []

/-- How a table comes from the one of its name before, if there was one, and from rows that are
given to it. -/
inductive Table.Becomes (given : List Row) : Option Table → Table → Prop
  | created {table : Table} (hcounters : table.counters = []) (hgiven : given = []) :
    Becomes given none table
  | unchanged {table : Table} : Becomes given (some table) table
  | inserted {table : Table} : Becomes given (some table) (table.insertRows given)
  | changed {before after : Table} (hcounters : after.counters = before.counters)
    (hnumbered : before.numberedColumns ⊆ after.numberedColumns) (hgiven : given = []) :
    Becomes given (some before) after

/-- The numbers that a table has given out in a column go on without a gap, whatever becomes of it:
the counter is the last of them, and the first of a created table is one. -/
theorem Table.Becomes.numbers {given : List Row} {before : Option Table} {table : Table}
    (h : Becomes given before table) {column : String} {numbers : List Value}
    (hown : OwnName table.numberedColumns column)
    (hnone : before = none → numbers = [])
    (hsome : ∀ old, before = some old → OwnName old.numberedColumns column →
      numbers = (List.range' 1 (old.counter column)).map .ofNat) :
    numbers ++ numbersPut column given ((before.map (·.rows)).getD []) table.rows =
      (List.range' 1 (table.counter column)).map .ofNat := by
  cases h with
  | created hcounters hgiven =>
    have hcounter : table.counter column = 0 := by
      rw [counter, hcounters]
      rfl
    rw [hnone rfl, hgiven, hcounter]
    rfl
  | unchanged =>
    rw [hsome table rfl hown, Option.map_some, Option.getD_some, numbersPut_same,
      List.append_nil]
  | @inserted old =>
    have hcolumns : (old.insertRows given).numberedColumns = old.numberedColumns := by
      rw [numberedColumns, columns_insertRows]
      rfl
    rw [hcolumns] at hown
    obtain ⟨count, hcounter, hnumbers⟩ := numbersPut_insertRows hown given
    rw [hsome old rfl hown, Option.map_some, Option.getD_some, hnumbers, hcounter,
      ← List.map_append, Nat.add_comm _ 1, List.range'_append_1]
  | @changed old _ hcounters hnumbered hgiven =>
    have hcounter : table.counter column = old.counter column := by
      rw [counter, hcounters]
      rfl
    rw [hsome old rfl (hown.mono hnumbered), hgiven, hcounter]
    exact List.append_nil _

namespace Catalog

variable {catalog : Catalog} {name : String} {table : Table}

theorem find?_congr {other : String} (h : Text.lower other = Text.lower name) :
    catalog.find? other = catalog.find? name := by
  rw [find?, find?, h]

/-- A table that is found after a replacement is the new one, or was found before. -/
theorem WellFormed.find?_of_replace (h : catalog.WellFormed) {owner : String}
    {old new : Table} (hfind : catalog.find? owner = some old) (hname : new.name = old.name)
    (hafter : (catalog.replace new).find? name = some table) :
    (Text.lower owner = Text.lower name ∧ catalog.find? name = some old ∧ table = new) ∨
      (Text.lower owner ≠ Text.lower name ∧ catalog.find? name = some table) := by
  obtain ⟨hnew, hothers⟩ := h.find?_replace hfind hname
  by_cases howner : Text.lower owner = Text.lower name
  · rw [find?_congr howner] at hfind hnew
    refine .inl ⟨howner, hfind, ?_⟩
    exact Option.some.inj (hafter.symm.trans hnew)
  · rw [hothers name (Ne.symm howner)] at hafter
    exact .inr ⟨howner, hafter⟩

/-- A table that is found after a creation is the created one, which was not there, or was found
before. -/
theorem find?_of_create {created : Table} {larger : Catalog}
    (h : catalog.create created = .ok larger) (hafter : larger.find? name = some table) :
    (catalog.find? name = none ∧ table = created) ∨ catalog.find? name = some table := by
  rw [create_eq] at h
  split at h
  · cases h
  · next hnew =>
    cases h
    rw [find?, List.lookup_cons] at hafter
    split at hafter
    · next hkey =>
      refine .inl ⟨?_, (Option.some.inj hafter).symm⟩
      rw [find?, beq_iff_eq.1 hkey]
      exact Option.not_isSome_iff_eq_none.1 hnew
    · exact .inr hafter

theorem lookup_dropped (entries : List (String × Table)) (dropped key : String) :
    (entries.filter (·.1 != dropped)).lookup key =
      if key = dropped then none else entries.lookup key := by
  induction entries with
  | nil => simp
  | cons entry rest ih =>
    obtain ⟨own, kept⟩ := entry
    by_cases hown : own = dropped
    · subst hown
      rw [List.filter_cons_of_neg (by simp), ih]
      by_cases hkey : key = own
      · rw [if_pos hkey, if_pos hkey]
      · rw [if_neg hkey, if_neg hkey, List.lookup_cons, beq_false_of_ne hkey]
    · rw [List.filter_cons_of_pos (by simpa using hown), List.lookup_cons, List.lookup_cons]
      by_cases hkey : key = own
      · have hne : key ≠ dropped := hkey ▸ hown
        rw [hkey, beq_self_eq_true, if_neg hown]
      · rw [beq_false_of_ne hkey]
        exact ih

/-- A table that is found after another one is dropped was found before. -/
theorem find?_of_drop {owner : String} {dropped : Table} {smaller : Catalog}
    (h : catalog.drop owner = .ok (dropped, smaller)) (hafter : smaller.find? name = some table) :
    catalog.find? name = some table := by
  rw [drop_eq] at h
  obtain ⟨found, -, h⟩ := bind_eq_ok.1 h
  cases h
  rw [find?, lookup_dropped] at hafter
  split at hafter
  · cases hafter
  · exact hafter

/-- A table that is changed apart from its counters, and keeps its columns, or another one. -/
theorem WellFormed.becomes_of_replace (h : catalog.WellFormed) {owner : String} {old new : Table}
    (hfind : catalog.find? owner = some old)
    (hafter : (catalog.replace new).find? name = some table) (hname : new.name = old.name)
    (hcounters : new.counters = old.counters)
    (hnumbered : old.numberedColumns ⊆ new.numberedColumns) :
    Table.Becomes [] (catalog.find? name) table := by
  rcases h.find?_of_replace hfind hname hafter with ⟨-, hold, rfl⟩ | ⟨-, hold⟩
  · rw [hold]
    exact .changed hcounters hnumbered rfl
  · rw [hold]
    exact .unchanged

end Catalog

/-- The table of a name in a catalog that a statement leads to, if there is one, is made in one of
these ways. -/
theorem Statement.LeadsTo.becomes {catalog after : Catalog} {statement : Statement}
    (leads : statement.LeadsTo catalog after) (h : catalog.WellFormed) {name : String}
    {table : Table} (hafter : after.find? name = some table) :
    Table.Becomes (statement.rowsGiven catalog name) (catalog.find? name) table := by
  cases leads with
  | unchanged =>
    rw [hafter]
    exact .unchanged
  | @insert s old rows hget hrows =>
    rcases h.find?_of_replace (Catalog.get_eq_ok.1 hget) (Table.name_insertRows old rows) hafter
      with ⟨howner, hold, rfl⟩ | ⟨-, hold⟩
    · have hgiven : Change.givenRows catalog s = .ok rows := bind_eq_ok.2 ⟨old, hget, hrows⟩
      rw [rowsGiven, if_pos howner, hgiven, hold]
      exact .inserted
    · rw [hold]
      exact .unchanged
  | update hget | delete hget =>
    exact h.becomes_of_replace (Catalog.get_eq_ok.1 hget) hafter rfl rfl (List.Subset.refl _)
  | @addColumn s old wider hget hwider =>
    rw [Table.addColumn] at hwider
    split at hwider
    · cases hwider
    · cases hwider
      refine h.becomes_of_replace (Catalog.get_eq_ok.1 hget) hafter rfl rfl ?_
      -- the new column stands behind those that were there
      have hcolumns : old.columns ⊆ old.columns ++ [s.column] := List.subset_append_left _ _
      exact List.map_subset _ (List.filter_subset _ hcolumns)
  | createTable hrepeated hcreate =>
    rcases Catalog.find?_of_create hcreate hafter with ⟨hnone, rfl⟩ | hold
    · rw [hnone]
      exact .created rfl rfl
    · rw [hold]
      exact .unchanged
  | dropTable hdrop =>
    rw [Catalog.find?_of_drop hdrop hafter]
    exact .unchanged

end SqlEngine
