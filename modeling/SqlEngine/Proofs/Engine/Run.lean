import SqlEngine.Proofs.Engine.History
import SqlEngine.Proofs.Grammar.Columns

/-!
# Runs of an engine

An engine is given scripts and told to drop its tables, in any order. Whatever holds of the empty
catalog and is kept by every statement that was read from a text holds of every catalog that such a
run leads to; in particular every such catalog is well formed.
-/
namespace SqlEngine

/-- What an engine can be told to do. -/
inductive Engine.Command where
  | script (text : String)
  | reset

namespace Engine

/-- The engine after a command. -/
def perform (engine : Engine) : Command → Engine
  | .script text => (engine.execute text).2
  | .reset => engine.reset

/-- The engine after some commands. -/
def run (engine : Engine) (commands : List Command) : Engine := commands.foldl perform engine

theorem settings_perform (engine : Engine) (command : Command) :
    (engine.perform command).settings = engine.settings := by
  cases command with
  | script text =>
    rw [perform, execute, runStatements_eq_history]
    exact settings_after engine _
  | reset => rfl

theorem settings_run (engine : Engine) (commands : List Command) :
    (engine.run commands).settings = engine.settings := by
  induction commands generalizing engine with
  | nil => rfl
  | cons command rest ih => exact (ih _).trans (engine.settings_perform command)

end Engine

/-- What every statement that was read from a text keeps. -/
def Catalog.Kept (P : Catalog → Prop) : Prop :=
  ∀ (semantics : JoinSemantics) (limit : Nat) (sql : String) (statement : Statement)
    (before after : Catalog) (outcome : Outcome), Statement.ofText limit sql = .ok statement →
    statement.execute semantics before = .ok (outcome, after) → P before → P after

namespace Engine

variable {P : Catalog → Prop}

theorem runStatement_keeps (kept : Catalog.Kept P) (engine : Engine) (raw : String)
    (h : P engine.catalog) : P (engine.runStatement raw).2.catalog := by
  rcases runStatement_cases engine raw with hrun | ⟨outcome, after, hok, hrun⟩ | ⟨e, -, hrun⟩
  · rw [hrun]
    exact h
  · obtain ⟨statement, hread, hexecute⟩ := exists_of_outcomeOf hok
    rw [hrun]
    exact kept _ _ _ statement _ _ outcome hread hexecute h
  · rw [hrun]
    exact h

theorem react_keeps (kept : Catalog.Kept P) (empty : P .empty) (engine : Engine) (event : Event)
    (h : P engine.catalog) : P (engine.react event).2.catalog := by
  cases event with
  | statement raw =>
    rw [react_statement]
    exact runStatement_keeps kept engine raw h
  | reset =>
    rw [react_reset]
    exact empty

theorem after_keeps (kept : Catalog.Kept P) (empty : P .empty) (engine : Engine)
    (events : List Event) (h : P engine.catalog) : P (engine.after events).catalog := by
  induction events generalizing engine with
  | nil => exact h
  | cons event rest ih =>
    rw [after_cons]
    exact ih _ (react_keeps kept empty engine event h)

theorem perform_keeps (kept : Catalog.Kept P) (empty : P .empty) (engine : Engine)
    (command : Command) (h : P engine.catalog) : P (engine.perform command).catalog := by
  cases command with
  | script text =>
    rw [perform, execute, runStatements_eq_history]
    exact after_keeps kept empty engine _ h
  | reset => exact empty

theorem run_keeps (kept : Catalog.Kept P) (empty : P .empty) (engine : Engine)
    (commands : List Command) (h : P engine.catalog) : P (engine.run commands).catalog := by
  induction commands generalizing engine with
  | nil => exact h
  | cons command rest ih => exact ih _ (perform_keeps kept empty engine command h)

end Engine

theorem Catalog.WellFormed.kept : Catalog.Kept Catalog.WellFormed := by
  intro semantics limit sql statement before after outcome hread hexecute h
  exact Statement.execute_wellFormed h (Statement.ofText_columnsProper hread) hexecute

/-- Every catalog that an engine comes to have is well formed. -/
theorem Engine.run_wellFormed (settings : Settings) (commands : List Command) :
    ((Engine.start settings).run commands).catalog.WellFormed :=
  run_keeps Catalog.WellFormed.kept .empty (Engine.start settings) commands .empty

/-- Whatever scripts an engine runs from the start, and however often it drops its tables: the order
of creation lists the keys of its tables, each once, and every key is the name of its table, in
small letters; every table has columns, with distinct names; and the fields of every row are exactly
the columns of its table, in their order. -/
theorem Engine.wellFormed_run (settings : Settings) (commands : List Command) :
    let catalog := ((Engine.start settings).run commands).catalog
    (catalog.order.Nodup ∧ catalog.order.Perm catalog.keys ∧
      ∀ entry ∈ catalog.entries, entry.1 = entry.2.name ∧ Text.lower entry.2.name = entry.2.name) ∧
    (∀ entry ∈ catalog.entries, entry.2.columns ≠ [] ∧
      entry.2.columnNames.Pairwise fun a b => Text.sameName a b = false) ∧
    ∀ entry ∈ catalog.entries, ∀ row ∈ entry.2.rows, row.names = entry.2.columnNames := by
  intro catalog
  have h : catalog.WellFormed :=
    run_keeps Catalog.WellFormed.kept .empty (Engine.start settings) commands .empty
  refine ⟨⟨h.order_nodup, h.order_perm, ?_⟩, ?_, ?_⟩
  · intro entry hentry
    exact ⟨h.keys_own entry hentry, (h.tables_wellFormed entry hentry).name_small⟩
  · intro entry hentry
    have hw := h.tables_wellFormed entry hentry
    exact ⟨hw.columns_nonempty, hw.columns_distinct⟩
  · intro entry hentry
    exact (h.tables_wellFormed entry hentry).rows_shaped

end SqlEngine
