import SqlEngine.Proofs.Catalog.Insertion

/-!
# Statements that change one table

INSERT, UPDATE, DELETE and ALTER TABLE look at no other table than the one they name. What they do
to the catalog is nothing, if they fail, or else a table of the same name is put in the place of
that one. What they come to is therefore the same on all catalogs that have the table in common.
-/
namespace SqlEngine

/-- The table whose rows or columns a statement changes. -/
def Statement.changedTable? : Statement → Option String
  | insert s => some s.table
  | update s => some s.table
  | delete s => some s.table
  | addColumn s => some s.table
  | _ => none

/-- The statement is carried out by changing the table of the given name, which keeps its name. -/
structure Statement.ActsOn (s : Statement) (name : String)
    (change : Table → Except SqlError (Outcome × Table)) : Prop where
  execute_eq : ∀ semantics catalog, s.execute semantics catalog = (do
    let table ← catalog.get name
    let (outcome, changed) ← change table
    return (outcome, catalog.replace changed))
  keeps_name : ∀ table outcome changed, change table = .ok (outcome, changed) →
    changed.name = table.name

namespace Statement

open Change

theorem insert_actsOn (s : Insert) : ∃ change, (insert s).ActsOn s.table change := by
  refine ⟨fun table => do
    let rows ← rowsOfGroups table s
    return (.change .insert (Text.lower s.table) rows.length, table.insertRows rows), ?_, ?_⟩
  · intro semantics catalog
    simp only [execute_insert, insert_result, bind_assoc, pure_bind]
  · intro table outcome changed h
    obtain ⟨rows, -, h⟩ := bind_eq_ok.1 h
    cases h
    exact table.name_insertRows rows

theorem update_actsOn (s : Update) : ∃ change, (update s).ActsOn s.table change := by
  refine ⟨fun table => do
    let changes ← updatedRows table s
    let rows := (table.rows.zip changes).map fun pair => pair.2.getD pair.1
    return (.change .update (Text.lower s.table) (changes.filter (·.isSome)).length,
      { table with rows }), ?_, ?_⟩
  · intro semantics catalog
    simp only [execute_update, update_result, bind_assoc, pure_bind]
  · intro table outcome changed h
    obtain ⟨changes, -, h⟩ := bind_eq_ok.1 h
    cases h
    rfl

theorem delete_actsOn (s : Delete) : ∃ change, (delete s).ActsOn s.table change := by
  refine ⟨fun table => do
    let marks ← Condition.marks s.filter table.rows
    let kept := ((table.rows.zip marks).filter fun pair => !pair.2).map (·.1)
    return (.change .delete (Text.lower s.table) (table.rows.length - kept.length),
      { table with rows := kept }), ?_, ?_⟩
  · intro semantics catalog
    simp only [execute_delete, delete_result, bind_assoc, pure_bind]
  · intro table outcome changed h
    obtain ⟨marks, -, h⟩ := bind_eq_ok.1 h
    cases h
    rfl

theorem addColumn_actsOn (s : AddColumn) : ∃ change, (addColumn s).ActsOn s.table change := by
  refine ⟨fun table => do
    let wider ← table.addColumn s.column
    return (.definition (.columnAdded s.column.name table.name), wider), ?_, ?_⟩
  · intro semantics catalog
    simp only [execute_addColumn, addColumn_result, bind_assoc, pure_bind]
  · intro table outcome changed h
    obtain ⟨wider, hwider, h⟩ := bind_eq_ok.1 h
    cases h
    rw [Table.addColumn] at hwider
    split at hwider
    · cases hwider
    · cases hwider
      rfl

/-- A statement that changes a table acts on no other one. -/
theorem exists_actsOn {s : Statement} {name : String} (h : s.changedTable? = some name) :
    ∃ change, s.ActsOn name change := by
  cases s with
  | insert s =>
    cases h
    exact insert_actsOn s
  | update s =>
    cases h
    exact update_actsOn s
  | delete s =>
    cases h
    exact delete_actsOn s
  | addColumn s =>
    cases h
    exact addColumn_actsOn s
  | createTable | createIndex | select | dropTable | showTables | describe => cases h

end Statement

namespace Catalog

variable {catalog : Catalog}

/-- The catalog with a table put in its place, if there is one to put. -/
def put (catalog : Catalog) : Option Table → Catalog
  | none => catalog
  | some table => catalog.replace table

theorem get_put {table? : Option Table} {name : String}
    (h : ∀ table ∈ table?, table.name ≠ Text.lower name) :
    (catalog.put table?).get name = catalog.get name := by
  cases table? with
  | none => rfl
  | some table =>
    have hne : Text.lower name ≠ table.name := (h table rfl).symm
    have hfind : (catalog.replace table).find? name = catalog.find? name := by
      rw [find?, replace, lookup_replaced, if_neg hne]
      rfl
    rw [put, get, get, hfind]

theorem replace_comm {table other : Table} (h : table.name ≠ other.name) :
    (catalog.replace table).replace other = (catalog.replace other).replace table := by
  rw [replace, replace, replace, replace]
  simp only [List.map_map, mk.injEq, and_true]
  refine List.map_congr_left fun entry _ => ?_
  obtain ⟨key, old⟩ := entry
  by_cases htable : key = table.name
  · have hother : key ≠ other.name := htable ▸ h
    simp [htable, h]
  · simp [htable]

/-- Tables of different names may be put in their places in either order. -/
theorem put_comm {table? other? : Option Table}
    (h : ∀ table ∈ table?, ∀ other ∈ other?, table.name ≠ other.name) :
    (catalog.put table?).put other? = (catalog.put other?).put table? := by
  cases table? with
  | none => rfl
  | some table =>
    cases other? with
    | none => rfl
    | some other => exact replace_comm (h table rfl other rfl)

end Catalog

/-- A statement that acts on one table comes to the same, and puts the same table in its place, on
every catalog that has the table in common with a well-formed one. -/
theorem Statement.ActsOn.execute_cases {s : Statement} {name : String}
    {change : Table → Except SqlError (Outcome × Table)} (h : s.ActsOn name change)
    {catalog : Catalog} (hw : catalog.WellFormed) (semantics : JoinSemantics) :
    (∃ e, ∀ other : Catalog, other.get name = catalog.get name →
        s.execute semantics other = .error e) ∨
      ∃ outcome changed, changed.name = Text.lower name ∧
        ∀ other : Catalog, other.get name = catalog.get name →
          s.execute semantics other = .ok (outcome, other.replace changed) := by
  cases hget : catalog.get name with
  | error e =>
    refine .inl ⟨e, fun other hother => ?_⟩
    rw [h.execute_eq, hother]
    rfl
  | ok table =>
    cases hchange : change table with
    | error e =>
      refine .inl ⟨e, fun other hother => ?_⟩
      rw [h.execute_eq, hother]
      exact (bind_of_ok rfl _).trans (by rw [hchange]; rfl)
    | ok result =>
      obtain ⟨outcome, changed⟩ := result
      have hkey : Text.lower name = table.name :=
        hw.keys_own _ (Catalog.find?_mem (Catalog.get_eq_ok.1 hget))
      refine .inr ⟨outcome, changed, ?_, fun other hother => ?_⟩
      · rw [h.keeps_name _ _ _ hchange, hkey]
      · rw [h.execute_eq, hother]
        exact (bind_of_ok rfl _).trans (by rw [hchange]; rfl)

end SqlEngine
