import SqlEngine.Proofs.Engine.History
import SqlEngine.Proofs.Script.Single

/-!
# Failures are isolated

The engine goes on with the catalog that a statement leaves, also when the statement fails. Since
the changes of a failed statement are none, wherever in it the failure was found, the statements
behind it are run as if it had not been there. A statement that a script was cut into is cut no
further when it is run as a script of its own, hence a script can be run piece by piece, without the
pieces that fail.
-/
namespace SqlEngine.Engine

/-- Runs scripts one after another: their records, and the engine afterwards. -/
def executeEach (engine : Engine) : List String → List Record × Engine
  | [] => ([], engine)
  | script :: rest =>
    let (records, engine) := engine.execute script
    let (others, engine) := engine.executeEach rest
    (records ++ others, engine)

/-- The steps in which an engine runs the statements of a script. -/
def stepsOf (engine : Engine) (script : String) : List Step :=
  engine.history ((Script.statements script).map .statement)

/-- The statements of those steps that do not fail. -/
def passing (steps : List Step) : List String :=
  (steps.filter (!·.fails)).filterMap (·.statement?)

theorem executeEach_cons (engine : Engine) (script : String) (rest : List String) :
    engine.executeEach (script :: rest) =
      ((engine.execute script).1 ++ ((engine.execute script).2.executeEach rest).1,
        ((engine.execute script).2.executeEach rest).2) := by
  rw [executeEach]

theorem passing_cons (step : Step) (steps : List Step) :
    passing (step :: steps) =
      if step.fails then passing steps else step.statement?.toList ++ passing steps := by
  by_cases h : step.fails = true
  · simp [passing, h]
  · simp only [passing, List.filter_cons, h, Bool.not_false, if_true]
    cases hstatement : step.statement? <;> simp [hstatement]

/-- Statements that are scripts of their own can be run without those that fail: the other records
and the engine afterwards are the same. -/
theorem executeEach_passing {raws : List String}
    (hown : ∀ raw ∈ raws, Script.statements raw = [raw]) (engine : Engine) :
    engine.executeEach (passing (engine.history (raws.map .statement))) =
      ((engine.runStatements raws).1.filter (!·.isFailure), (engine.runStatements raws).2) := by
  induction raws generalizing engine with
  | nil => rfl
  | cons raw rest ih =>
    obtain ⟨hraw, hrest⟩ := List.forall_mem_cons.1 hown
    have hexecute := engine.execute_of_statements hraw
    have hsame := @Step.after_of_fails ⟨engine, .statement raw⟩
    rw [Step.fails_statement, Step.after_statement] at hsame
    rw [List.map_cons, history_cons, passing_cons, react_statement, Step.fails_statement,
      runStatements_cons, List.filter_append]
    -- what the statement does is no longer looked into
    generalize engine.runStatement raw = run at hexecute hsame ⊢
    obtain ⟨record, next⟩ := run
    dsimp only at hexecute hsame ⊢
    have hnext := ih hrest next
    by_cases hfails : record.any Record.isFailure = true
    · have hdropped : record.toList.filter (!·.isFailure) = [] := by
        cases record with
        | none => rfl
        | some failure => simpa using hfails
      obtain rfl : next = engine := hsame hfails
      rw [if_pos hfails, hdropped, hnext, List.nil_append]
    · have hkept : record.toList.filter (!·.isFailure) = record.toList := by
        cases record with
        | none => rfl
        | some done => simpa using hfails
      rw [if_neg hfails, hkept]
      change executeEach engine (raw :: passing _) = _
      rw [executeEach_cons, hexecute, hnext]

/-- Whatever the statement and the catalog: if the statement fails, then the catalog that it leaves,
with every table and the order of creation, is the one that it was given. Hence, whatever the engine
and the script, a statement that fails leaves the engine as it was; and when the statements that do
not fail are run in their order, each as a script of its own, the engine comes out as from the whole
script, with the same records but for those of the failures. -/
theorem failures_isolated (engine : Engine) (script : String) :
    (∀ (semantics : JoinSemantics) (s : Statement) (catalog after : Catalog) (e : SqlError),
      (s.run semantics).run catalog = .error e after → after = catalog) ∧
    (∀ step ∈ engine.stepsOf script, step.fails = true → step.after = step.before) ∧
      engine.execute script =
        ((engine.stepsOf script).filterMap (·.record?),
          engine.after ((Script.statements script).map .statement)) ∧
      engine.executeEach (passing (engine.stepsOf script)) =
        ((engine.execute script).1.filter (!·.isFailure), (engine.execute script).2) := by
  refine ⟨?_, fun step _ h => Step.after_of_fails h, runStatements_eq_history _ _, ?_⟩
  · exact fun semantics s catalog after e h => s.atomic_run semantics catalog e after h
  · exact executeEach_passing (fun _ => Script.statements_of_mem) engine

/-- The condition holds for the first of two rows, whose new value is computed before the condition
fails for the second one. -/
example :
    let letter (text : String) : Condition :=
      .compare .eq (.column ⟨none, "v"⟩) (.literal (.text text))
    let s : Statement := .update ⟨"t", [("v", .literal (.text "x"))],
      some (.disjunction [letter "a", .isNull (.call .count false [.star]) false])⟩
    let catalog : Catalog := ⟨[("t", ⟨"t", [.plain "v" "TEXT"],
      [⟨[("v", .text "a")]⟩, ⟨[("v", .text "b")]⟩], []⟩)], ["t"]⟩
    (match (s.run .standard).run catalog with
      | .ok _ _ => none
      | .error _ after => some after) = some catalog := by
  decide +kernel +zetaReduce

end SqlEngine.Engine
