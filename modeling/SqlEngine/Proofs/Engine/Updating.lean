import SqlEngine.Proofs.Catalog.Writing
import SqlEngine.Proofs.Engine.Run
import SqlEngine.Proofs.Engine.Selection
import SqlEngine.Proofs.Row.Last

/-!
# What an UPDATE does

An UPDATE turns each row of its table into one, in the place of the old one. A row for which the
condition does not hold is left as it is. In the other rows every assigned column gets the value
that its last assignment has in the row as it was, so two columns may change their values with each
other, and every other cell stays. Nothing else in the catalog is touched.
-/
namespace SqlEngine

/-- What an UPDATE makes of a row. -/
inductive Update.Turns (s : Update) : Row → Row → Prop
  | kept {row : Row} (h : Condition.clauseHolds s.filter (.row row) = .ok false) :
    Turns s row row
  | changed {row new : Row} (h : Condition.clauseHolds s.filter (.row row) = .ok true)
    (names : new.names = row.names)
    (assigned : ∀ name e, Row.lastUnder? name s.assignments = some e →
      ∃ v, e.evalOperand (.row row) = .ok v ∧ new.get? name = some v)
    (others : ∀ name, Row.lastUnder? name s.assignments = none →
      new.get? name = row.get? name) :
    Turns s row new

namespace Change

variable {catalog after : Catalog} {table : Table} {s : Update}

/-- Resolved assignments are the written ones, under the names that the table keeps. -/
theorem resolveAssignments_related {written assignments : List (String × Expr)}
    (h : resolveAssignments table written = .ok assignments) :
    List.Forall₂ (fun own found => Text.sameName own.1 found.1 = true ∧ own.2 = found.2)
      written assignments := by
  obtain ⟨columns, hcolumns, rfl⟩ := resolveAssignments_eq_ok h
  have hnames := List.forall₂_map_left_iff.1 (resolveColumns_related hcolumns)
  exact forall₂_zip_right (f := (·.2)) hnames

/-- A row of the table is turned into what the assignments make of it. -/
theorem turns_updatedRow {assignments : List (String × Expr)}
    (hresolved : resolveAssignments table s.assignments = .ok assignments) {row : Row}
    (hrow : row.names = table.columnNames) {change : Option Row}
    (h : updatedRow? s.filter assignments row = .ok change) : s.Turns row (change.getD row) := by
  obtain ⟨holds, hholds, hchange⟩ := bind_eq_ok.1 h
  cases holds with
  | false =>
    cases hchange
    exact .kept hholds
  | true =>
    obtain ⟨values, hvalues, hchange⟩ := bind_eq_ok.1 hchange
    cases hchange
    have hwritten : List.Forall₂ (fun own field => Text.sameName own.1 field.1 = true ∧
        own.2.evalOperand (.row row) = .ok field.2)
        s.assignments ((assignments.map (·.1)).zip values) := by
      refine forall₂_comp ?_ (resolveAssignments_related hresolved)
        (forall₂_zip_left (f := (·.1)) (mapM_eq_ok.1 hvalues))
      rintro own found field ⟨hname, hexpr⟩ ⟨hfield, hvalue⟩
      rw [← hfield, hexpr]
      exact ⟨hname, hvalue⟩
    have hlast := fun name => Row.lastUnder?_related
      (R := fun (e : Expr) v => e.evalOperand (.row row) = .ok v) hwritten name
    have hsubset : ∀ column ∈ assignments.map (·.1), column ∈ row.names := by
      rw [hrow]
      exact resolveAssignments_subset hresolved
    rw [Option.getD_some]
    refine .changed hholds (names_setAll_zip hsubset) (fun name e he => ?_) fun name hnone => ?_
    · obtain ⟨v, hfield, hv⟩ := Row.exists_of_related (hlast name) he
      refine ⟨v, hv, ?_⟩
      rw [Row.get?_setAll, hfield]
      rfl
    · rw [Row.get?_setAll, Row.eq_none_of_related (hlast name) hnone]
      rfl

/-- An UPDATE that succeeds turns each row of its table, in its place, and changes nothing else. -/
theorem update_eq_ok (h : catalog.WellFormed) {count : Nat}
    (ok : (update s).result catalog = .ok (count, after)) :
    ∃ table rows, catalog.find? s.table = some table ∧ List.Forall₂ s.Turns table.rows rows ∧
      after = catalog.replace { table with rows } := by
  obtain ⟨table, assignments, changes, hget, hassignments, hchanges, -, rfl⟩ := update_cases ok
  refine ⟨table, _, Catalog.get_eq_ok.1 hget, ?_, rfl⟩
  have hrows := (List.forall₂_and_left _ _).2
    ⟨(h.of_get hget).rows_shaped, mapM_eq_ok.1 hchanges⟩
  refine forall₂_map_zip (f := fun row change => change.getD row) (fun row change hrow => ?_) hrows
  exact turns_updatedRow hassignments hrow.1 hrow.2

end Change

namespace Engine

/-- Whatever scripts an engine has run, an UPDATE that succeeds keeps the name, the columns and the
counters of its table, and turns its rows one by one, in their order: those for which the condition
does not hold stay as they are, and in the others each assigned column has the value of its last
assignment in the row as it was, and all other cells stay. No other table changes, and the number
that is reported is that of the rows for which the condition holds. -/
theorem update_turns_rows (settings : Settings) (commands : List Command)
    (semantics : JoinSemantics) (s : Update) :
    let catalog := ((Engine.start settings).run commands).catalog
    ∀ outcome after, (Statement.update s).execute semantics catalog = .ok (outcome, after) →
      ∃ table rows, catalog.find? s.table = some table ∧
        after.find? s.table = some { table with rows } ∧
        List.Forall₂ s.Turns table.rows rows ∧
        (∀ other, Text.lower other ≠ Text.lower s.table →
          after.find? other = catalog.find? other) ∧
        after.order = catalog.order ∧
        outcome = .change .update (Text.lower s.table)
          (table.rows.filter (Condition.selects s.filter)).length := by
  intro catalog outcome after h
  have hw : catalog.WellFormed := run_wellFormed settings commands
  rw [Statement.execute_update] at h
  obtain ⟨⟨count, changed⟩, hupdate, h⟩ := bind_eq_ok.1 h
  cases h
  obtain ⟨table, rows, hfind, hrows, rfl⟩ := Change.update_eq_ok hw hupdate
  have hcount := Change.update_count (Catalog.get_eq_ok.2 hfind) hupdate
  have hname : ({ table with rows } : Table).name = table.name := rfl
  obtain ⟨hafter, hothers⟩ := hw.find?_replace hfind hname
  exact ⟨table, rows, hfind, hafter, hrows, hothers, rfl, by rw [hcount]⟩

/-- The columns of the first of two rows change their values with each other; the first of the two
assignments to one of them does not count. -/
theorem update_turns_rows_swap :
    let commands : List Command :=
      [.script "CREATE TABLE t(a,b);INSERT INTO t VALUES('x','y'),('u','w')"]
    let catalog := ((Engine.start .standard).run commands).catalog
    let row (a b : String) : Row := ⟨[("a", .text a), ("b", .text b)]⟩
    let table : Table := ⟨"t", [.plain "a" "TEXT", .plain "b" "TEXT"],
      [row "x" "y", row "u" "w"], []⟩
    let s : Update := ⟨"t", [("a", .literal (.text "z")), ("b", .column ⟨none, "a"⟩),
      ("a", .column ⟨none, "b"⟩)], some (.compare .eq (.column ⟨none, "a"⟩) (.literal (.text "x")))⟩
    ∃ after, (Statement.update s).execute .standard catalog =
        .ok (.change .update "t" 1, after) ∧
      after.find? "t" = some { table with rows := [row "y" "x", row "u" "w"] } ∧
      List.Forall₂ s.Turns table.rows [row "y" "x", row "u" "w"] := by
  intro commands catalog row table s
  let changed : Table := { table with rows := [row "y" "x", row "u" "w"] }
  have hcatalog : catalog = ⟨[("t", table)], ["t"]⟩ := by decide +kernel
  have hname : Text.lower "t" = "t" := by decide +kernel
  have hfind : catalog.find? "t" = some table := by
    rw [hcatalog, Catalog.find?, hname]
    rfl
  have hresult : ((Statement.update s).execute .standard catalog).toOption.map (·.2) =
      some ⟨[("t", changed)], ["t"]⟩ := by
    rw [hcatalog]
    decide +kernel
  have hselected : (table.rows.filter (Condition.selects s.filter)).length = 1 := by
    decide +kernel
  obtain ⟨⟨outcome, after⟩, hexecute, hafter⟩ := exists_ok_of_map hresult
  obtain rfl : after = ⟨[("t", changed)], ["t"]⟩ := hafter
  obtain ⟨found, rows, hfound, hkept, hturned, -, -, rfl⟩ :=
    update_turns_rows .standard commands .standard s outcome _ hexecute
  obtain rfl : table = found := Option.some.inj (hfind.symm.trans hfound)
  have hchanged : Catalog.find? ⟨[("t", changed)], ["t"]⟩ "t" = some changed := by
    rw [Catalog.find?, hname]
    rfl
  have hrows : changed = { table with rows } := Option.some.inj (hchanged.symm.trans hkept)
  obtain rfl : changed.rows = rows := congrArg Table.rows hrows
  rw [hselected, hname] at hexecute
  exact ⟨_, hexecute, hchanged, hturned⟩

end Engine
end SqlEngine
