import SqlEngine.Engine
import SqlEngine.Proofs.Catalog.Result

/-!
# The history of an engine

An engine runs statements, each given as its text, and is told to drop its tables. Its history is
the list of these steps, with the engine before and after each of them. A script is run by running
its statements, so what holds of every history holds of every sequence of scripts.
-/
namespace SqlEngine

/-- A record tells of a failure. -/
def Record.isFailure : Record → Bool
  | .failed _ _ => true
  | _ => false

theorem Record.isFailure_ofOutcome (outcome : Outcome) : (ofOutcome outcome).isFailure = false := by
  cases outcome <;> rfl

/-- Nothing is read from an empty text. -/
theorem Statement.nonempty_of_ofText {limit : Nat} {sql : String} {s : Statement}
    (h : Statement.ofText limit sql = .ok s) : sql.isEmpty = false := by
  rw [← Bool.not_eq_true, String.isEmpty_iff]
  rintro rfl
  cases h

namespace Engine

theorem atomic_carryOut (settings : Settings) (sql : String) : (carryOut settings sql).Atomic :=
  (Change.reads_lift _).bind_atomic fun s => s.atomic_run settings.joins

theorem outcomeOf_eq (engine : Engine) (sql : String) :
    engine.outcomeOf sql = (do
      let statement ← Statement.ofText engine.settings.statementPreview sql
      statement.execute engine.settings.joins engine.catalog) := by
  rw [outcomeOf, carryOut, Change.result_bind, Change.result_lift, bind_assoc]
  rfl

/-- A text that is read has the outcome of the statement that it is. -/
theorem outcomeOf_of_read (engine : Engine) {sql : String} {s : Statement}
    (h : Statement.ofText engine.settings.statementPreview sql = .ok s) :
    engine.outcomeOf sql = s.execute engine.settings.joins engine.catalog := by
  rw [outcomeOf_eq, h]
  rfl

/-- A text that is refused fails, whatever the catalog. -/
theorem outcomeOf_of_refused (engine : Engine) {sql : String} {e : SqlError}
    (h : Statement.ofText engine.settings.statementPreview sql = .error e) :
    engine.outcomeOf sql = .error e := by
  rw [outcomeOf_eq, h]
  rfl

/-- A text with an outcome is read as a statement with that outcome. -/
theorem exists_of_outcomeOf {engine : Engine} {sql : String} {outcome : Outcome} {after : Catalog}
    (h : engine.outcomeOf sql = .ok (outcome, after)) :
    ∃ s, Statement.ofText engine.settings.statementPreview sql = .ok s ∧
      s.execute engine.settings.joins engine.catalog = .ok (outcome, after) := by
  rw [outcomeOf_eq] at h
  exact bind_eq_ok.1 h

/-- What a statement does to an engine is told by its outcome: a failure leaves the engine as it
was, because the change is atomic. -/
theorem runStatement_eq (engine : Engine) (raw : String) :
    engine.runStatement raw =
      if (Script.stripComments raw).isEmpty then (none, engine)
      else match engine.outcomeOf (Script.stripComments raw) with
        | .ok (outcome, catalog) => (some (.ofOutcome outcome), { engine with catalog })
        | .error e => (some (.failed e raw), engine) := by
  rw [runStatement, outcomeOf, (atomic_carryOut _ _).run_eq]
  split
  · rfl
  · cases (carryOut engine.settings (Script.stripComments raw)).result engine.catalog <;> rfl

section Statement

variable {engine : Engine} {raw : String}
  (hnonempty : (Script.stripComments raw).isEmpty = false)
include hnonempty

theorem runStatement_of_error {e : SqlError}
    (h : engine.outcomeOf (Script.stripComments raw) = .error e) :
    engine.runStatement raw = (some (.failed e raw), engine) := by
  rw [runStatement_eq, hnonempty, h]
  rfl

theorem runStatement_of_ok {outcome : Outcome} {catalog : Catalog}
    (h : engine.outcomeOf (Script.stripComments raw) = .ok (outcome, catalog)) :
    engine.runStatement raw = (some (.ofOutcome outcome), { engine with catalog }) := by
  rw [runStatement_eq, hnonempty, h]
  rfl

end Statement

/-- Nothing but comments leaves no record; else a statement has an outcome, and its catalog is that
of the engine afterwards, or fails, and the engine stays as it was. -/
theorem runStatement_cases (engine : Engine) (raw : String) :
    engine.runStatement raw = (none, engine) ∨
      (∃ outcome catalog, engine.outcomeOf (Script.stripComments raw) = .ok (outcome, catalog) ∧
        engine.runStatement raw = (some (.ofOutcome outcome), { engine with catalog })) ∨
      ∃ e, engine.outcomeOf (Script.stripComments raw) = .error e ∧
        engine.runStatement raw = (some (.failed e raw), engine) := by
  rw [runStatement_eq]
  split
  · exact .inl rfl
  · split
    · next outcome catalog hok => exact .inr (.inl ⟨outcome, catalog, hok, rfl⟩)
    · next e herror => exact .inr (.inr ⟨e, herror, rfl⟩)

/-- What happens to an engine. -/
inductive Event where
  | statement (raw : String)
  | reset

/-- What an event leaves behind, and the engine after it. -/
def react (engine : Engine) : Event → Option Record × Engine
  | .statement raw => engine.runStatement raw
  | .reset => (none, engine.reset)

/-- The engine after some events. -/
def after (engine : Engine) (events : List Event) : Engine :=
  events.foldl (fun engine event => (engine.react event).2) engine

/-- An event with the engine that it happens to. -/
structure Step where
  before : Engine
  event : Event

namespace Step

/-- What a step leaves behind. -/
def record? (step : Step) : Option Record := (step.before.react step.event).1

/-- The engine after a step. -/
def after (step : Step) : Engine := (step.before.react step.event).2

/-- The statement of a step failed. -/
def fails (step : Step) : Bool := step.record?.any Record.isFailure

/-- The text of the statement that is run in a step. -/
def statement? (step : Step) : Option String :=
  match step.event with
  | .statement raw => some raw
  | .reset => none

end Step

/-- The steps of an engine through some events. -/
def history (engine : Engine) : List Event → List Step
  | [] => []
  | event :: rest => ⟨engine, event⟩ :: history (engine.react event).2 rest

theorem react_statement (engine : Engine) (raw : String) :
    engine.react (.statement raw) = engine.runStatement raw := rfl

theorem react_reset (engine : Engine) : engine.react .reset = (none, engine.reset) := rfl

theorem after_cons (engine : Engine) (event : Event) (rest : List Event) :
    engine.after (event :: rest) = (engine.react event).2.after rest := rfl

theorem history_cons (engine : Engine) (event : Event) (rest : List Event) :
    engine.history (event :: rest) = ⟨engine, event⟩ :: history (engine.react event).2 rest := rfl

theorem history_append (engine : Engine) (events others : List Event) :
    engine.history (events ++ others) =
      engine.history events ++ (engine.after events).history others := by
  induction events generalizing engine with
  | nil => rfl
  | cons event rest ih => exact congrArg _ (ih _)

/-- One more event is one more step. -/
theorem history_concat (engine : Engine) (events : List Event) (event : Event) :
    engine.history (events ++ [event]) =
      engine.history events ++ [⟨engine.after events, event⟩] :=
  history_append engine events [event]

theorem after_concat (engine : Engine) (events : List Event) (event : Event) :
    engine.after (events ++ [event]) = ((engine.after events).react event).2 :=
  List.foldl_append

/-- An engine keeps its settings, whatever happens to it. -/
theorem settings_react (engine : Engine) (event : Event) :
    (engine.react event).2.settings = engine.settings := by
  cases event with
  | statement raw =>
    rw [react_statement]
    rcases engine.runStatement_cases raw with h | ⟨_, _, -, h⟩ | ⟨_, -, h⟩ <;> rw [h]
  | reset => rfl

theorem settings_after (engine : Engine) (events : List Event) :
    (engine.after events).settings = engine.settings := by
  induction events generalizing engine with
  | nil => rfl
  | cons event rest ih => rw [after_cons, ih, settings_react]

theorem runStatements_cons (engine : Engine) (raw : String) (rest : List String) :
    engine.runStatements (raw :: rest) =
      ((engine.runStatement raw).1.toList ++ ((engine.runStatement raw).2.runStatements rest).1,
        ((engine.runStatement raw).2.runStatements rest).2) := by
  rw [runStatements]

/-- A script of one statement is run by running that statement. -/
theorem execute_of_statements (engine : Engine) {script raw : String}
    (h : Script.statements script = [raw]) :
    engine.execute script = ((engine.runStatement raw).1.toList, (engine.runStatement raw).2) := by
  rw [execute, h, runStatements_cons, runStatements, List.append_nil]

/-- The records of statements that are run one after another are those of the history. -/
theorem runStatements_eq_history (engine : Engine) (raws : List String) :
    engine.runStatements raws =
      ((engine.history (raws.map .statement)).filterMap (·.record?),
        engine.after (raws.map .statement)) := by
  induction raws generalizing engine with
  | nil => rfl
  | cons raw rest ih =>
    have hrecord : Step.record? ⟨engine, .statement raw⟩ = (engine.runStatement raw).1 := rfl
    rw [runStatements_cons, ih, List.map_cons, history, List.filterMap_cons, hrecord]
    cases (engine.runStatement raw).1 <;> rfl

namespace Step

theorem fails_statement (engine : Engine) (raw : String) :
    fails ⟨engine, .statement raw⟩ = (engine.runStatement raw).1.any Record.isFailure := by
  rw [fails, record?, react_statement]

theorem after_statement (engine : Engine) (raw : String) :
    Step.after ⟨engine, .statement raw⟩ = (engine.runStatement raw).2 := by
  rw [Step.after, react_statement]

end Step

/-- A step that fails changes nothing. -/
theorem Step.after_of_fails {step : Step} (h : step.fails = true) : step.after = step.before := by
  obtain ⟨engine, event⟩ := step
  cases event with
  | reset => cases h
  | statement raw =>
    rw [fails_statement] at h
    rw [after_statement]
    rcases runStatement_cases engine raw with hrun | ⟨outcome, catalog, -, hrun⟩ | ⟨e, -, hrun⟩
    · rw [hrun]
    · rw [hrun, Option.any_some, Record.isFailure_ofOutcome] at h
      cases h
    · rw [hrun]

end Engine
end SqlEngine
