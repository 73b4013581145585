import SqlEngine.Proofs.Catalog.Locality
import SqlEngine.Proofs.Engine.Run

/-!
# Statements on different tables commute

A statement that changes one table leaves the same record on all catalogs that have this table in
common, and puts the same table in its place. Two such statements that name different tables can
therefore be run in either order, whether they succeed or fail, with the same records and the same
catalog in the end.
-/
namespace SqlEngine.Engine

/-- The text is a statement, and whatever is read from it changes the table of the given name and no
other one. What cannot be read changes nothing. -/
structure Changes (engine : Engine) (raw name : String) : Prop where
  nonempty : (Script.stripComments raw).isEmpty = false
  changed : ∀ s, Statement.ofText engine.settings.statementPreview (Script.stripComments raw) =
    .ok s → s.changedTable? = some name

variable {engine : Engine} {raw name : String}

/-- A text that is read as a statement on the table changes it. -/
theorem changes_of_read (hnonempty : (Script.stripComments raw).isEmpty = false)
    (h : (Statement.ofText engine.settings.statementPreview
      (Script.stripComments raw)).toOption.map Statement.changedTable? = some (some name)) :
    engine.Changes raw name := by
  refine ⟨hnonempty, fun s hs => ?_⟩
  rw [hs] at h
  exact Option.some.inj h

/-- A statement that changes one table leaves one record, and puts a table of that name in its place
or nothing, and it does the same on every catalog that has the table in common. -/
theorem Changes.runStatement_eq (h : engine.Changes raw name) (hw : engine.catalog.WellFormed) :
    ∃ record table?, (∀ table ∈ table?, table.name = Text.lower name) ∧
      ∀ catalog : Catalog, catalog.get name = engine.catalog.get name →
        runStatement { engine with catalog } raw =
          (some record, { engine with catalog := catalog.put table? }) := by
  cases hread : Statement.ofText engine.settings.statementPreview
      (Script.stripComments raw) with
  | error e =>
    refine ⟨.failed e raw, none, nofun, fun catalog _ => ?_⟩
    exact runStatement_of_error h.nonempty (outcomeOf_of_refused { engine with catalog } hread)
  | ok s =>
    obtain ⟨change, hacts⟩ := Statement.exists_actsOn (h.changed s hread)
    rcases hacts.execute_cases hw engine.settings.joins with
      ⟨e, hexecute⟩ | ⟨outcome, changed, hname, hexecute⟩
    · refine ⟨.failed e raw, none, nofun, fun catalog hcatalog => ?_⟩
      refine runStatement_of_error h.nonempty ?_
      exact (outcomeOf_of_read { engine with catalog } hread).trans (hexecute catalog hcatalog)
    · refine ⟨.ofOutcome outcome, some changed, ?_, fun catalog hcatalog => ?_⟩
      · rintro table ⟨⟩
        exact hname
      · refine runStatement_of_ok h.nonempty ?_
        exact (outcomeOf_of_read { engine with catalog } hread).trans (hexecute catalog hcatalog)

/-- On every catalog that scripts lead to, two statements that change different tables leave the
same two records in either order, and the same engine: the tables with their columns, rows and
counters, and the order of creation. This is so when one of them fails, or both. -/
theorem changes_commute (settings : Settings) (commands : List Command)
    (raw raw' name name' : String) :
    let engine := (Engine.start settings).run commands
    engine.Changes raw name → engine.Changes raw' name' → Text.lower name ≠ Text.lower name' →
      ∃ record record' after,
        engine.runStatements [raw, raw'] = ([record, record'], after) ∧
        engine.runStatements [raw', raw] = ([record', record], after) := by
  intro engine h h' hne
  have hw : engine.catalog.WellFormed := run_wellFormed settings commands
  obtain ⟨record, table?, hname, hrun⟩ := h.runStatement_eq hw
  obtain ⟨record', table'?, hname', hrun'⟩ := h'.runStatement_eq hw
  have hkept : (engine.catalog.put table?).get name' = engine.catalog.get name' :=
    Catalog.get_put fun table htable => hname table htable ▸ hne
  have hkept' : (engine.catalog.put table'?).get name = engine.catalog.get name :=
    Catalog.get_put fun table htable => hname' table htable ▸ hne.symm
  have hcomm : (engine.catalog.put table?).put table'? =
      (engine.catalog.put table'?).put table? := by
    refine Catalog.put_comm fun table htable other hother => ?_
    rw [hname table htable, hname' other hother]
    exact hne
  have hfirst := hrun engine.catalog rfl
  have hfirst' := hrun' engine.catalog rfl
  have hsecond := hrun _ hkept'
  have hsecond' := hrun' _ hkept
  refine ⟨record, record', { engine with catalog := (engine.catalog.put table?).put table'? },
    ?_, ?_⟩
  · rw [runStatements_cons, runStatements_cons, runStatements, hfirst, hsecond']
    rfl
  · rw [runStatements_cons, runStatements_cons, runStatements, hfirst', hsecond, hcomm]
    rfl

/-- A column is added to one table, and an INSERT into the other one fails because its second row
has too many values. -/
theorem changes_commute_letters :
    let engine := (Engine.start .standard).run [.script "CREATE TABLE a(v);CREATE TABLE b(w)"]
    let widen := "ALTER TABLE A ADD u"
    let fill := "INSERT INTO b VALUES('x'),('y','z')"
    engine.Changes widen "a" ∧ engine.Changes fill "b" ∧ Text.lower "a" ≠ Text.lower "b" ∧
      ∃ record record' after,
        engine.runStatements [widen, fill] = ([record, record'], after) ∧
        engine.runStatements [fill, widen] = ([record', record], after) ∧
        record.isFailure = false ∧ record'.isFailure = true := by
  intro engine widen fill
  have hsettings : engine.settings = .standard := settings_run (Engine.start .standard) _
  have hwiden : engine.Changes widen "a" := by
    refine changes_of_read (by decide +kernel) ?_
    rw [hsettings]
    decide +kernel
  have hfill : engine.Changes fill "b" := by
    refine changes_of_read (by decide +kernel) ?_
    rw [hsettings]
    decide +kernel
  have hne : Text.lower "a" ≠ Text.lower "b" := by decide +kernel
  obtain ⟨record, record', after, hrun, hrun'⟩ :=
    changes_commute .standard _ widen fill "a" "b" hwiden hfill hne
  have hfailures : (engine.runStatements [widen, fill]).1.map Record.isFailure = [false, true] := by
    decide +kernel
  rw [hrun] at hfailures
  obtain ⟨hdone, hrest⟩ := List.cons.inj hfailures
  exact ⟨hwiden, hfill, hne, record, record', after, hrun, hrun', hdone, (List.cons.inj hrest).1⟩

end SqlEngine.Engine
