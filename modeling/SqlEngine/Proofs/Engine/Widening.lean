import SqlEngine.Proofs.Catalog.Widening
import SqlEngine.Proofs.Engine.Run
import SqlEngine.Proofs.Grammar.Mentions

/-!
# Queries do not notice a column that they do not mention

A SELECT without a star is answered alike before and after a column was added to a table, if the
query does not mention the column. The table may stand in the query any number of times, and other
tables may have a column of that name already: the new cells go through the joins and the groups
like all the others, and no clause looks at them.
-/
namespace SqlEngine

/-- The query that a statement is. -/
def Statement.query? : Statement → Option Select
  | .select s => some s
  | _ => none

/-- The column that a statement adds. -/
def Statement.addedColumn? : Statement → Option Column
  | .addColumn added => some added.column
  | _ => none

namespace Engine

/-- What is read from the text is a SELECT without a star in its select list. A text that cannot be
read is refused on every catalog alike. -/
def AsksWithoutStar (settings : Settings) (query : String) : Prop :=
  ∀ statement, Statement.ofText settings.statementPreview (Script.stripComments query) =
    .ok statement → ∃ s, statement = .select s ∧ s.StarFree

/-- No name in the text is that of the column. -/
def NamesNowhere (query column : String) : Prop :=
  ∀ list, Lexer.tokens (Script.stripComments query) = .ok list →
    Grammar.Unmentioned column list.tokens

/-- No column that the query reads has the name. Tables, other names for items and text between
double quotes may be called so. -/
def ReadsNowhere (settings : Settings) (query column : String) : Prop :=
  ∀ s, Statement.ofText settings.statementPreview (Script.stripComments query) =
    .ok (.select s) → ColumnRef.AllOther column s.columnRefs

/-- Without a star is a text that is read as a query without one. -/
theorem asksWithoutStar_of_read {settings : Settings} {query : String}
    (h : ((Statement.ofText settings.statementPreview (Script.stripComments query)).toOption.bind
      Statement.query?).map (fun s => s.items.any SelectItem.isStar) = some false) :
    AsksWithoutStar settings query := by
  intro statement hread
  rw [hread] at h
  cases statement with
  | select s =>
    have hitems := List.any_eq_false.1 (Option.some.inj h)
    exact ⟨s, rfl, fun item hitem => Bool.eq_false_iff.2 (hitems item hitem)⟩
  | _ => cases h

theorem namesNowhere_of_tokens {query column : String}
    (h : (Lexer.tokens (Script.stripComments query)).toOption.map (fun list =>
      list.tokens.all fun t => t.name?.all (Text.isOther column)) = some true) :
    NamesNowhere query column := by
  intro list hlist t ht name hname
  rw [hlist] at h
  have hall := List.all_eq_true.1 (Option.some.inj h) t ht
  rw [hname] at hall
  exact hall

theorem avoids_of_namesNowhere {limit : Nat} {query column : String} {s : Select}
    (hread : Statement.ofText limit (Script.stripComments query) = .ok (.select s))
    (hstars : s.StarFree) (h : NamesNowhere query column) : s.Avoids column := by
  obtain ⟨kind, list, _, hlist, r, hkind, -⟩ := Statement.exists_readKind_of_ofText hread
  exact Grammar.yields_kind kind list.tokens _ r (h list hlist) hkind s rfl hstars

variable {engine : Engine}

/-- On a catalog with the same answer a query leaves the same record, and no trace in the engine. -/
theorem runStatement_of_answers {query : String} {catalog : Catalog}
    (h : ∀ statement, Statement.ofText engine.settings.statementPreview
        (Script.stripComments query) = .ok statement → ∃ s, statement = .select s ∧
      Query.select engine.settings.joins catalog s =
        Query.select engine.settings.joins engine.catalog s) :
    runStatement { engine with catalog } query =
      ((engine.runStatement query).1, { engine with catalog }) := by
  cases hempty : (Script.stripComments query).isEmpty with
  | true => simp only [runStatement_eq, hempty, if_true]
  | false =>
    cases hread : Statement.ofText engine.settings.statementPreview
        (Script.stripComments query) with
    | error e =>
      have hfails : ∀ other : Catalog, outcomeOf { engine with catalog := other }
          (Script.stripComments query) = .error e := fun other =>
        outcomeOf_of_refused { engine with catalog := other } hread
      rw [runStatement_of_error hempty (hfails catalog),
        runStatement_of_error hempty (hfails engine.catalog)]
    | ok statement =>
      obtain ⟨s, rfl, hsame⟩ := h statement hread
      have houtcome : ∀ other : Catalog, outcomeOf { engine with catalog := other }
          (Script.stripComments query) =
            (do return (.listing (← Query.select engine.settings.joins other s), other)) :=
        fun other => (outcomeOf_of_read { engine with catalog := other } hread).trans
          (Statement.execute_select s)
      have hthere := houtcome catalog
      have hhere := houtcome engine.catalog
      rw [hsame] at hthere
      cases hanswer : Query.select engine.settings.joins engine.catalog s with
      | error e =>
        rw [hanswer] at hthere hhere
        rw [runStatement_of_error hempty hthere, runStatement_of_error hempty hhere]
      | ok answer =>
        rw [hanswer] at hthere hhere
        rw [runStatement_of_ok hempty hthere, runStatement_of_ok hempty hhere]

/-- An ALTER TABLE leads to a catalog that is the same without the column, whether the column was
added or refused. -/
theorem exists_widened {alter : String} {added : AddColumn} (hw : engine.catalog.WellFormed)
    (hread : Statement.ofText engine.settings.statementPreview (Script.stripComments alter) =
      .ok (.addColumn added)) :
    ∃ catalog, (engine.runStatement alter).2 = { engine with catalog } ∧
      catalog.without added.column.name = engine.catalog.without added.column.name := by
  rcases engine.runStatement_cases alter with h | ⟨outcome, after, houtcome, h⟩ | ⟨e, -, h⟩
  · exact ⟨engine.catalog, by rw [h], rfl⟩
  · refine ⟨after, by rw [h], ?_⟩
    rw [engine.outcomeOf_of_read hread, Statement.execute_addColumn] at houtcome
    obtain ⟨⟨what, changed⟩, hadd, hdefined⟩ := bind_eq_ok.1 houtcome
    cases hdefined
    exact hw.without_addColumn hadd
  · exact ⟨engine.catalog, by rw [h], rfl⟩

/-- On every catalog that scripts lead to, adding a column does not disturb a SELECT without a star
that does not mention the column, neither in its text nor, at the least, in what is read from it.
The query leaves the same record before and after the ALTER TABLE, with the same header and the same
rows in the same order, or with the same failure. -/
theorem addColumn_undisturbing (settings : Settings) (commands : List Command)
    (alter query : String) {added : AddColumn} :
    let engine := (Engine.start settings).run commands
    let wider := (engine.runStatement alter).2
    Statement.ofText settings.statementPreview (Script.stripComments alter) =
        .ok (.addColumn added) →
      AsksWithoutStar settings query →
      NamesNowhere query added.column.name ∨ ReadsNowhere settings query added.column.name →
        wider.runStatement query = ((engine.runStatement query).1, wider) := by
  intro engine wider halter hasks hnowhere
  have hw : engine.catalog.WellFormed := run_wellFormed settings commands
  have hsettings : engine.settings = settings := settings_run (Engine.start settings) commands
  rw [← hsettings] at halter
  obtain ⟨catalog, hwider, hsame⟩ := exists_widened hw halter
  dsimp only [wider]
  rw [hwider]
  refine runStatement_of_answers fun statement hread => ?_
  rw [hsettings] at hread
  obtain ⟨s, rfl, hstars⟩ := hasks statement hread
  have havoids : s.Avoids added.column.name := by
    rcases hnowhere with hnames | hreads
    · exact avoids_of_namesNowhere hread hstars hnames
    · exact Select.avoids_of_columnRefs hstars (hreads s hread)
  exact ⟨s, rfl, Query.select_congr_without hsame havoids _⟩

/-- The table that gets the column is joined with one that has a column of that name. -/
theorem addColumn_undisturbing_letters :
    let engine := (Engine.start .standard).run
      [.script "CREATE TABLE a(k);CREATE TABLE b(k,u);INSERT INTO a VALUES('p')"]
    let alter := "ALTER TABLE a ADD u"
    let query := "SELECT a.k FROM a LEFT JOIN b ON a.k=b.k"
    let wider := (engine.runStatement alter).2
    (engine.runStatement alter).1.map Record.isFailure = some false ∧
      ∃ added, Statement.ofText Settings.standard.statementPreview (Script.stripComments alter) =
        .ok (.addColumn added) ∧
      AsksWithoutStar .standard query ∧ NamesNowhere query added.column.name ∧
      wider.runStatement query = ((engine.runStatement query).1, wider) := by
  intro engine alter query wider
  have halter : (Statement.ofText Settings.standard.statementPreview
      (Script.stripComments alter)).toOption.map (fun statement =>
        statement.addedColumn?.map Column.name) = some (some "u") := by decide +kernel
  have hasks : AsksWithoutStar .standard query := asksWithoutStar_of_read (by decide +kernel)
  have hnames : NamesNowhere query "u" := namesNowhere_of_tokens (by decide +kernel)
  obtain ⟨statement, halter, hname⟩ := exists_ok_of_map halter
  cases statement with
  | addColumn added =>
    rw [← Option.some.inj hname] at hnames
    have hsame := addColumn_undisturbing .standard
      [.script "CREATE TABLE a(k);CREATE TABLE b(k,u);INSERT INTO a VALUES('p')"]
      alter query halter hasks (.inl hnames)
    exact ⟨by decide +kernel, added, halter, hasks, hnames, hsame⟩
  | _ => cases hname

end Engine
end SqlEngine
