import Mathlib.Data.List.DropRight
import Mathlib.Data.List.Nodup
import SqlEngine.Proofs.Catalog.Succession
import SqlEngine.Proofs.Engine.Run
import SqlEngine.Proofs.Number.Exact

/-!
# Numbers over the life of a table

The life of a table is the last stretch of a history in which there is a table of its name: it
begins with the CREATE and ends with a DROP or with a reset. What the engine has put into a numbered
column in that time, where a row came without a value, is read off the rows that the statements give
and the rows that stand in the table afterwards; it is one, two and so on up to the counter of the
column.
-/
namespace SqlEngine

/-- The rows of the table of a name, none if there is no such table. -/
def Catalog.rowsOf (catalog : Catalog) (name : String) : List Row :=
  ((catalog.find? name).map (·.rows)).getD []

namespace Engine

namespace Step

/-- The rows that the statement of a step gives to the table of a name, before they are numbered. -/
def rowsGiven (step : Step) (name : String) : List Row :=
  match step.event with
  | .statement raw =>
    match Statement.ofText step.before.settings.statementPreview (Script.stripComments raw) with
    | .ok statement => statement.rowsGiven step.before.catalog name
    | .error _ => []
  | .reset => []

/-- What a step puts into a column of a table where rows come without a value, row by row. -/
def numbersPut (step : Step) (name column : String) : List Value :=
  Table.numbersPut column (step.rowsGiven name) (step.before.catalog.rowsOf name)
    (step.after.catalog.rowsOf name)

/-- A table that is there after a step comes from the one before and from the rows of the step. -/
theorem becomes {step : Step} (h : step.before.catalog.WellFormed) {name : String} {table : Table}
    (hafter : step.after.catalog.find? name = some table) :
    Table.Becomes (step.rowsGiven name) (step.before.catalog.find? name) table := by
  obtain ⟨engine, event⟩ := step
  cases event with
  | reset => cases hafter
  | statement raw =>
    rw [after_statement] at hafter
    rcases runStatement_cases engine raw with hrun | ⟨outcome, after, hok, hrun⟩ | ⟨e, -, hrun⟩
    · rw [hrun] at hafter
      dsimp only
      rw [hafter]
      exact .unchanged
    · rw [hrun] at hafter
      obtain ⟨statement, hread, hexecute⟩ := exists_of_outcomeOf hok
      have hgiven : rowsGiven ⟨engine, .statement raw⟩ name =
          statement.rowsGiven engine.catalog name := by
        rw [rowsGiven]
        dsimp only
        rw [hread]
      rw [hgiven]
      exact (Statement.leadsTo_of_execute hexecute).becomes h hafter
    · rw [hrun] at hafter
      dsimp only
      rw [hafter]
      exact .unchanged

end Step

/-- The steps since the table of a name was created, none if there is no such table. -/
def lifeOf (name : String) (steps : List Step) : List Step :=
  steps.rtakeWhile fun step => step.after.catalog.contains name

/-- What was put into a column during the life of a table where rows came without a value, from the
first to the last. -/
def numbersOf (name column : String) (steps : List Step) : List Value :=
  (lifeOf name steps).flatMap (·.numbersPut name column)

theorem numbersOf_concat (name column : String) (steps : List Step) (step : Step) :
    numbersOf name column (steps ++ [step]) =
      if step.after.catalog.contains name then
        numbersOf name column steps ++ step.numbersPut name column
      else [] := by
  rw [numbersOf, lifeOf, List.rtakeWhile_concat]
  split
  · rw [List.flatMap_append, List.flatMap_singleton]
    rfl
  · rfl

theorem wellFormed_after (settings : Settings) (events : List Event) :
    ((Engine.start settings).after events).catalog.WellFormed :=
  after_keeps Catalog.WellFormed.kept .empty (Engine.start settings) events .empty

/-- The numbers of a column that has its name to itself are one, two and so on up to its counter, at
every point of a run. -/
theorem numbersOf_history (settings : Settings) (events : List Event) (name column : String) :
    let engine := (Engine.start settings).after events
    let numbers := numbersOf name column ((Engine.start settings).history events)
    (engine.catalog.find? name = none → numbers = []) ∧
      ∀ table, engine.catalog.find? name = some table →
        Table.OwnName table.numberedColumns column →
        numbers = (List.range' 1 (table.counter column)).map .ofNat := by
  induction events using List.reverseRecOn with
  | nil =>
    refine ⟨fun _ => rfl, ?_⟩
    intro table hfound
    cases hfound
  | append_singleton events event ih =>
    obtain ⟨hnone, hsome⟩ := ih
    have hstep : ((Engine.start settings).after (events ++ [event])) =
        Step.after ⟨(Engine.start settings).after events, event⟩ :=
      after_concat _ _ _
    rw [hstep, history_concat]
    intro engine numbers
    have hnumbers := numbersOf_concat name column ((Engine.start settings).history events)
      ⟨(Engine.start settings).after events, event⟩
    constructor
    · intro habsent
      refine hnumbers.trans (if_neg ?_)
      rw [Catalog.contains, habsent]
      exact Bool.false_ne_true
    · intro table hfound hown
      have hthere : engine.catalog.contains name = true := by
        rw [Catalog.contains, hfound]
        rfl
      have hbecomes := Step.becomes (wellFormed_after settings events) hfound
      have hput := hbecomes.numbers hown hnone hsome
      refine (hnumbers.trans (if_pos hthere)).trans ?_
      rw [Step.numbersPut, Catalog.rowsOf, Catalog.rowsOf, hfound]
      exact hput

/-- Between its creation and the end of its life, what the engine puts into a numbered column of a
table where rows come without a value is, in the order in which it is put there, one, two and so on
up to the counter of the column: no statement that deletes or changes rows, gives values of its own,
adds columns or fails makes a gap or a repetition. As long as the counter has at most 53 bits, these
are different values, and each holds its number exactly. -/
theorem numbers_without_gap (settings : Settings) (events : List Event) (name : String)
    (table : Table) (column : String)
    (hfound : ((Engine.start settings).after events).catalog.find? name = some table)
    (hcolumn : column ∈ table.numberedColumns) :
    let numbers := numbersOf name column ((Engine.start settings).history events)
    numbers = (List.range' 1 (table.counter column)).map .ofNat ∧
      (table.counter column < 2 ^ 53 → numbers.Nodup ∧
        ∀ n ∈ List.range' 1 (table.counter column),
          let exact := Number.Binary.ofFloat (Float.ofNat n)
          exact.isWhole = true ∧ exact.truncate = n) := by
  intro numbers
  have hw := (wellFormed_after settings events).of_get (Catalog.get_eq_ok.2 hfound)
  have hsubset := Table.WellFormed.numberedColumns_subset table
  have hown : Table.OwnName table.numberedColumns column :=
    .of_distinct hw.columns_distinct hsubset (hsubset column hcolumn)
  have hnumbers : numbers = (List.range' 1 (table.counter column)).map .ofNat :=
    (numbersOf_history settings events name column).2 table hfound hown
  refine ⟨hnumbers, fun hcounter => ?_⟩
  have hsmall : ∀ n ∈ List.range' 1 (table.counter column), n < 2 ^ 53 := by
    intro n hn
    have := (List.mem_range'_1.1 hn).2
    omega
  rw [hnumbers]
  constructor
  · refine List.Nodup.map_on ?_ List.nodup_range'
    intro n hn k hk heq
    exact (Value.ofNat_inj (hsmall n hn) (hsmall k hk)).1 heq
  · intro n hn
    exact Number.exact_ofNat (hsmall n hn)

/-- Rows are deleted, come with a value of their own, lose their values and are refused. -/
theorem numbers_without_gap_letters :
    let events : List Event := [
      .statement "CREATE TABLE t (id INT PRIMARY KEY, v TEXT)",
      .statement "INSERT INTO t (v) VALUES ('a'), ('b')",
      .statement "DELETE FROM t",
      .statement "INSERT INTO t VALUES (NULL, 'c'), (7, 'd')",
      .statement "UPDATE t SET id = NULL",
      .statement "INSERT INTO t (v) VALUES ('e'), (COUNT(*))",
      .statement "INSERT INTO t (v) VALUES ('f')"]
    ∃ table, ((Engine.start .standard).after events).catalog.find? "t" = some table ∧
      "id" ∈ table.numberedColumns ∧ table.counter "id" = 4 ∧
      numbersOf "t" "id" ((Engine.start .standard).history events) =
        (List.range' 1 4).map .ofNat := by
  intro events
  have hfound : (((Engine.start .standard).after events).catalog.find? "t").map
      (fun table => (decide ("id" ∈ table.numberedColumns), table.counter "id")) =
        some (true, 4) := by
    decide +kernel
  obtain ⟨table, htable, hrest⟩ := Option.map_eq_some_iff.1 hfound
  obtain ⟨hcolumn, hcounter⟩ := Prod.mk.inj hrest
  have hmem := of_decide_eq_true hcolumn
  have hnumbers := (numbers_without_gap .standard events "t" table "id" htable hmem).1
  rw [hcounter] at hnumbers
  exact ⟨table, htable, hmem, hcounter, hnumbers⟩

end Engine
end SqlEngine
