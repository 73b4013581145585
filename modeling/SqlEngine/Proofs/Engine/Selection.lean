import SqlEngine.Proofs.Catalog.Insertion
import SqlEngine.Proofs.Query.Selection

/-!
# One condition in three statements

SELECT, DELETE and UPDATE go through the rows of a table in loops of their own: one keeps rows on
its way, one marks all rows before it removes any, one computes new rows beside the old ones. With
the same condition they fail alike or deal with the same rows, so a DELETE takes away exactly what
the SELECT before it has shown.
-/
namespace SqlEngine

namespace Change

variable {semantics : JoinSemantics} {catalog : Catalog} {name : String}
  {clause : Option Condition} {table : Table}

/-- A DELETE removes the rows that the condition selects, if they can be marked, and fails as the
marking does otherwise. -/
theorem delete_eq (hget : catalog.get name = .ok table) :
    (delete ⟨name, clause⟩).result catalog = (do
      let _ ← Condition.marks clause table.rows
      let kept := table.rows.filter fun row => !Condition.selects clause row
      return (table.rows.length - kept.length, catalog.replace { table with rows := kept })) := by
  rw [delete_result]
  refine (bind_of_ok hget _).trans ?_
  change Condition.marks clause table.rows >>= _ = _
  cases hmarks : Condition.marks clause table.rows with
  | error e => rfl
  | ok marks =>
    obtain ⟨rfl, -⟩ := Condition.marks_eq_ok hmarks
    have hkept := Condition.map_fst_filter_zip_map (Condition.selects clause)
      (fun row => !Condition.selects clause row) (!·) (fun _ => rfl) table.rows
    change Except.ok _ = Except.ok _
    rw [hkept]

/-- An UPDATE computes a new row exactly for the rows that the condition selects. -/
theorem isSome_updatedRow {assignments : List (String × Expr)} {row : Row} {change : Option Row}
    (h : updatedRow? clause assignments row = .ok change) :
    change.isSome = Condition.selects clause row := by
  obtain ⟨holds, hholds, h⟩ := bind_eq_ok.1 h
  rw [Condition.clauseHolds_eq_selects hholds]
  cases holds with
  | true =>
    obtain ⟨values, -, h⟩ := bind_eq_ok.1 h
    cases h
    rfl
  | false =>
    cases h
    rfl

theorem length_changed {assignments : List (String × Expr)} {rows : List Row}
    {changes : List (Option Row)}
    (h : List.Forall₂ (fun row change => updatedRow? clause assignments row = .ok change)
      rows changes) :
    (changes.filter (·.isSome)).length = (rows.filter (Condition.selects clause)).length := by
  induction h with
  | nil => rfl
  | @cons row change _ _ hfirst _ ih =>
    rw [List.filter_cons, List.filter_cons, isSome_updatedRow hfirst]
    cases Condition.selects clause row with
    | true => exact congrArg (· + 1) ih
    | false => exact ih

/-- An UPDATE that succeeds reports how many rows the condition selects. -/
theorem update_count (hget : catalog.get name = .ok table)
    {assignments : List (String × Expr)} {count : Nat} {after : Catalog}
    (h : (update ⟨name, assignments, clause⟩).result catalog = .ok (count, after)) :
    count = (table.rows.filter (Condition.selects clause)).length := by
  obtain ⟨found, resolved, changes, hfound, -, hchanges, rfl, -⟩ := update_cases h
  obtain rfl : table = found := Except.ok.inj (hget.symm.trans hfound)
  exact length_changed (mapM_eq_ok.1 hchanges)

/-- A DELETE fails where a SELECT for all columns does, with the same error. -/
theorem delete_of_select_allOf (hw : catalog.WellFormed) {e : SqlError}
    (h : Query.select semantics catalog (.allOf name clause) = .error e) :
    (delete ⟨name, clause⟩).result catalog = .error e := by
  cases hget : catalog.get name with
  | error failure =>
    rw [Query.select_allOf_of_missing hget] at h
    cases h
    rw [delete_result, hget]
    rfl
  | ok table =>
    rw [delete_eq hget, Query.marks_of_select_allOf (hw.of_get hget) hget h]
    rfl

/-- A DELETE reports how many rows the condition selects, and keeps the other ones. -/
theorem delete_eq_ok (hget : catalog.get name = .ok table) (h : ∀ row ∈ table.rows,
      Condition.clauseHolds clause (.row row) = .ok (Condition.selects clause row)) :
    (delete ⟨name, clause⟩).result catalog =
      .ok ((table.rows.filter (Condition.selects clause)).length, catalog.replace { table with
        rows := table.rows.filter fun row => !Condition.selects clause row }) := by
  have hmarks : Condition.marks clause table.rows =
      .ok (table.rows.map (Condition.selects clause)) := mapM_eq_map h
  have hlength := table.rows.length_eq_length_filter_add (Condition.selects clause)
  rw [delete_eq hget]
  refine (bind_of_ok hmarks _).trans (congrArg Except.ok (Prod.ext ?_ rfl))
  dsimp only
  omega

end Change

namespace Engine

/-- A text that is read as a statement which fails leaves a record of the failure, and the engine as
it was. -/
theorem runStatement_of_fails {engine : Engine} {raw : String} {statement : Statement}
    {e : SqlError}
    (hread : Statement.ofText engine.settings.statementPreview (Script.stripComments raw) =
      .ok statement)
    (h : statement.execute engine.settings.joins engine.catalog = .error e) :
    engine.runStatement raw = (some (.failed e raw), engine) := by
  exact runStatement_of_error (Statement.nonempty_of_ofText hread)
    ((engine.outcomeOf_of_read hread).trans h)

/-- On every catalog that scripts lead to, a condition selects the same rows of a table in SELECT,
DELETE and UPDATE. If the SELECT of all columns fails, the DELETE fails with the same error, and
whatever text it was read from, the engine stays as it was. Otherwise the DELETE reports as many
rows as the SELECT gives; the table keeps exactly the other rows, in their order, and no other table
changes, so that the same SELECT finds nothing afterwards; and every UPDATE under the condition that
succeeds reports that number. -/
theorem where_selects_alike (settings : Settings) (commands : List Command)
    (semantics : JoinSemantics) (name : String) (clause : Option Condition) :
    let engine := (Engine.start settings).run commands
    (∀ e, Query.select semantics engine.catalog (.allOf name clause) = .error e →
      (Statement.delete ⟨name, clause⟩).execute semantics engine.catalog = .error e ∧
      ∀ raw, Statement.ofText engine.settings.statementPreview (Script.stripComments raw) =
          .ok (.delete ⟨name, clause⟩) →
        engine.runStatement raw = (some (.failed e raw), engine)) ∧
    ∀ answer, Query.select semantics engine.catalog (.allOf name clause) = .ok answer →
      ∃ table selected after, engine.catalog.find? name = some table ∧
        (∀ row ∈ table.rows, Condition.clauseHolds clause (.row row) = .ok (selected row)) ∧
        answer.rows = (table.rows.filter selected).map Row.values ∧
        (Statement.delete ⟨name, clause⟩).execute semantics engine.catalog =
          .ok (.change .delete (Text.lower name) answer.rows.length, after) ∧
        after.find? name = some { table with rows := table.rows.filter (!selected ·) } ∧
        (∀ other, Text.lower other ≠ Text.lower name →
          after.find? other = engine.catalog.find? other) ∧
        after.order = engine.catalog.order ∧
        Query.select semantics after (.allOf name clause) = .ok ⟨[], []⟩ ∧
        ∀ assignments outcome changed,
          (Statement.update ⟨name, assignments, clause⟩).execute semantics engine.catalog =
            .ok (outcome, changed) →
          outcome = .change .update (Text.lower name) answer.rows.length := by
  intro engine
  have hw : engine.catalog.WellFormed := run_wellFormed settings commands
  refine ⟨fun e h => ?_, fun answer h => ?_⟩
  · have hdelete : ∀ joins,
        (Statement.delete ⟨name, clause⟩).execute joins engine.catalog = .error e := by
      intro joins
      rw [Statement.execute_delete, Change.delete_of_select_allOf hw h]
      rfl
    exact ⟨hdelete semantics, fun raw hread => runStatement_of_fails hread (hdelete _)⟩
  · obtain ⟨table, hget⟩ := Query.exists_get_of_select_allOf h
    have htable := hw.of_get hget
    have hfind := Catalog.get_eq_ok.1 hget
    obtain ⟨hholds, hrows⟩ := Query.select_allOf_eq_ok htable hget h
    have hcount : answer.rows.length =
        (table.rows.filter (Condition.selects clause)).length := by
      rw [hrows, List.length_map]
    let remaining : Table :=
      { table with rows := table.rows.filter fun row => !Condition.selects clause row }
    have hkept : remaining.WellFormed := htable.withRows fun row hrow =>
      htable.rows_shaped row (List.mem_of_mem_filter hrow)
    have hsame : remaining.name = table.name := rfl
    obtain ⟨hafter, hothers⟩ := hw.find?_replace hfind hsame
    refine ⟨table, Condition.selects clause, _, hfind, hholds, hrows, ?_, hafter, hothers, rfl, ?_,
      ?_⟩
    · rw [Statement.execute_delete, Change.delete_eq_ok hget hholds, hcount]
      rfl
    · refine Query.select_allOf_of_none hkept (Catalog.get_eq_ok.2 hafter) fun row hrow => ?_
      obtain ⟨hmem, hnot⟩ := List.mem_filter.1 hrow
      have hselects : Condition.selects clause row = false := by simpa using hnot
      rw [hholds row hmem, hselects]
    · intro assignments outcome changed hupdate
      rw [Statement.execute_update] at hupdate
      obtain ⟨⟨count, after⟩, hupdate, houtcome⟩ := bind_eq_ok.1 hupdate
      cases houtcome
      rw [Change.update_count hget hupdate, hcount]

/-- Two of three rows are selected, and the DELETE leaves the one between them. -/
theorem where_selects_alike_letters :
    let commands : List Command :=
      [.script "CREATE TABLE t(v);INSERT INTO t VALUES('a'),('b'),('a')"]
    let catalog := ((Engine.start .standard).run commands).catalog
    let table : Table := ⟨"t", [.plain "v" "TEXT"],
      [⟨[("v", .text "a")]⟩, ⟨[("v", .text "b")]⟩, ⟨[("v", .text "a")]⟩], []⟩
    let clause : Option Condition :=
      some (.compare .eq (.column ⟨none, "v"⟩) (.literal (.text "a")))
    catalog.find? "t" = some table ∧ ∃ answer after kept,
      Query.select .standard catalog (.allOf "t" clause) = .ok answer ∧
      answer.rows = [[.text "a"], [.text "a"]] ∧
      (Statement.delete ⟨"t", clause⟩).execute .standard catalog =
        .ok (.change .delete "t" 2, after) ∧
      after.find? "t" = some kept ∧ kept.rows = [⟨[("v", .text "b")]⟩] := by
  intro commands catalog table clause
  have hcatalog : catalog = ⟨[("t", table)], ["t"]⟩ := by decide +kernel
  have hname : Text.lower "t" = "t" := by decide +kernel
  have hrows : (Query.select .standard catalog (.allOf "t" clause)).toOption.map (·.rows) =
      some [[.text "a"], [.text "a"]] := by
    rw [hcatalog]
    decide +kernel
  have hfind : catalog.find? "t" = some table := by
    rw [hcatalog, Catalog.find?, hname]
    rfl
  obtain ⟨answer, hanswer, hcells⟩ := exists_ok_of_map hrows
  obtain ⟨found, selected, after, hfound, hholds, -, hdelete, hafter, -⟩ :=
    (where_selects_alike .standard commands .standard "t" clause).2 answer hanswer
  obtain rfl : table = found := Option.some.inj (hfind.symm.trans hfound)
  have hread : ∀ {row : Row} {holds : Bool},
      Condition.clauseHolds clause (.row row) = .ok (selected row) →
      (Condition.clauseHolds clause (.row row)).toOption = some holds → selected row = holds := by
    intro row holds hselected hvalue
    rw [hselected] at hvalue
    exact Option.some.inj hvalue
  have ha : selected ⟨[("v", .text "a")]⟩ = true :=
    hread (hholds _ List.mem_cons_self) (by decide +kernel)
  have hb : selected ⟨[("v", .text "b")]⟩ = false :=
    hread (hholds _ (List.mem_cons_of_mem _ List.mem_cons_self)) (by decide +kernel)
  rw [hcells, hname] at hdelete
  refine ⟨hfind, answer, after, _, hanswer, hcells, hdelete, hafter, ?_⟩
  dsimp only [table]
  rw [List.filter_cons_of_neg (by simp [ha]), List.filter_cons_of_pos (by simp [hb]),
    List.filter_cons_of_neg (by simp [ha])]
  rfl

end Engine
end SqlEngine
