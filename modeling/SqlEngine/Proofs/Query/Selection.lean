import SqlEngine.Proofs.Query.Columns

/-!
# What a WHERE clause selects

A condition marks the rows of a table one after another, up to the first row for which its
evaluation fails. If it fails for none, the filter of a query keeps exactly the rows that are
marked, each as often as it stands in the table, and SELECT with a star lists them cell by cell.
-/
namespace SqlEngine

/-- All columns of the rows of a table for which a condition holds. -/
def Select.allOf (table : String) (filter : Option Condition) : Select :=
  { distinct := false, items := [.star], source := ⟨table, none⟩, joins := [], filter
    groupBy := none, having := none, orderBy := [], limit := none, offset := none }

/-- A clause is evaluated for a row without failure, and holds. -/
def Condition.selects (clause : Option Condition) (row : Row) : Bool :=
  (clauseHolds clause (.row row)).toOption.getD false

namespace Condition

variable {clause : Option Condition} {rows : List Row}

theorem clauseHolds_eq_selects {row : Row} {holds : Bool}
    (h : clauseHolds clause (.row row) = .ok holds) : selects clause row = holds := by
  rw [selects, h]
  rfl

/-- Rows that are marked without failure are marked where the clause selects them. -/
theorem marks_eq_ok {marks : List Bool} (h : Condition.marks clause rows = .ok marks) :
    marks = rows.map (selects clause) ∧
      ∀ row ∈ rows, clauseHolds clause (.row row) = .ok (selects clause row) := by
  have hall := mapM_eq_ok.1 h
  clear h
  induction hall with
  | nil => exact ⟨rfl, List.forall_mem_nil _⟩
  | cons hfirst _ ih =>
    obtain ⟨hmarks, hrest⟩ := ih
    have hselects := clauseHolds_eq_selects hfirst
    refine ⟨?_, List.forall_mem_cons.2 ⟨?_, hrest⟩⟩
    · rw [List.map_cons, hselects, hmarks]
    · rw [hselects]
      exact hfirst

/-- Of rows and their marks, what a test of the marks keeps is what it keeps of the rows. -/
theorem map_fst_filter_zip_map (selects keep : Row → Bool) (test : Bool → Bool)
    (h : ∀ row, keep row = test (selects row)) (rows : List Row) :
    ((rows.zip (rows.map selects)).filter fun (_, mark) => test mark).map (·.1) =
      rows.filter keep := by
  induction rows with
  | nil => rfl
  | cons row rest ih =>
    rw [List.map_cons, List.zip_cons_cons]
    cases hkeep : keep row with
    | true =>
      rw [List.filter_cons_of_pos (by simp [← h, hkeep]), List.filter_cons_of_pos hkeep,
        List.map_cons, ih]
    | false =>
      rw [List.filter_cons_of_neg (by simp [← h, hkeep]), List.filter_cons_of_neg (by simp [hkeep]),
        ih]

end Condition

/-- The names of every row of a well-formed table are distinct. -/
theorem Table.WellFormed.rows_distinct {table : Table} (h : table.WellFormed) :
    ∀ row ∈ table.rows, Row.DistinctNames row.names := by
  intro row hrow
  rw [h.rows_shaped row hrow]
  exact h.columns_distinct

namespace Query

open Condition

variable {semantics : JoinSemantics} {catalog : Catalog} {clause : Option Condition}

/-- A filter keeps the marked rows. -/
theorem filterRows_eq_marks (clause : Option Condition) (rows : List Row) :
    filterRows clause rows = (do
      let marks ← Condition.marks clause rows
      return ((rows.zip marks).filter fun (_, mark) => mark).map (·.1)) := by
  induction rows with
  | nil => rfl
  | cons row rest ih =>
    rw [filterRows, Condition.marks, List.mapM_cons, ih, Condition.marks]
    simp only [bind_assoc, pure_bind]
    refine congrArg (clauseHolds clause (.row row) >>= ·) (funext fun holds => ?_)
    refine congrArg (_ >>= ·) (funext fun marks => ?_)
    cases holds <;> rfl

/-- A star makes of each row the row itself. -/
theorem project_star {row : Row} (h : Row.DistinctNames row.names) (scope : Scope) :
    project [.star] scope (some row) = .ok row := by
  have hmerge : Row.empty.merge row = row := by
    have hfields : (Row.empty.setAll row.fields).fields = Row.empty.fields ++ row.fields :=
      Row.fields_setAll_of_distinct h
    exact congrArg Row.mk hfields
  refine congrArg Except.ok ?_
  exact hmerge

theorem projectRows_star {s : Select} (horder : s.orderBy = []) {rows : List Row}
    (h : ∀ row ∈ rows, Row.DistinctNames row.names) :
    projectRows s [.star] rows = .ok (rows.map fun row => ⟨row, []⟩) := by
  refine mapM_eq_map fun row hrow => ?_
  rw [project_star (h row hrow), horder]
  rfl

/-- All columns of a table under a condition are listed as the rows that pass the filter. -/
theorem select_allOf {name : String} {table : Table} (hget : catalog.get name = .ok table)
    (hdistinct : ∀ row ∈ table.rows, Row.DistinctNames row.names) (clause : Option Condition) :
    select semantics catalog (.allOf name clause) = (do
      let rows ← filterRows clause table.rows
      return listing rows) := by
  have hsources : sources catalog (.allOf name clause) = .ok (table, []) :=
    (bind_of_ok hget _).trans rfl
  have hprojected : ∀ rows, filterRows clause table.rows = .ok rows →
      projectRows (.allOf name clause) [.star] rows = .ok (rows.map fun row => ⟨row, []⟩) :=
    fun rows hrows => projectRows_star rfl fun row hrow =>
      hdistinct row ((filterRows_sublist hrows).subset hrow)
  have hresult : resultRows semantics catalog (.allOf name clause) = (do
      let rows ← filterRows clause table.rows
      return rows.map fun row => ⟨row, []⟩) := by
    refine (bind_of_ok hsources _).trans ?_
    refine (bind_of_ok rfl _).trans ((bind_of_ok rfl _).trans ?_)
    change filterRows clause table.rows >>= _ = _
    cases hrows : filterRows clause table.rows with
    | error e => rfl
    | ok rows => exact (bind_of_ok (hprojected rows hrows) _).trans rfl
  rw [select, hresult, bind_assoc]
  refine congrArg (_ >>= ·) (funext fun rows => ?_)
  have hrows : (rows.map fun row => (⟨row, []⟩ : Projected)).map (·.row) = rows := by
    rw [List.map_map]
    exact List.map_id rows
  exact congrArg (fun rows => Except.ok (listing rows)) hrows

/-- There are no columns to list of a table that is not there. -/
theorem select_allOf_of_missing {name : String} {e : SqlError} (hget : catalog.get name = .error e)
    (clause : Option Condition) : select semantics catalog (.allOf name clause) = .error e := by
  have hsources : sources catalog (.allOf name clause) = .error e := by
    rw [sources, Select.allOf, hget]
    rfl
  rw [select, resultRows, hsources]
  rfl

variable {name : String} {table : Table}

/-- A SELECT for all columns that is answered has found its table. -/
theorem exists_get_of_select_allOf {answer : Listing}
    (h : select semantics catalog (.allOf name clause) = .ok answer) :
    ∃ table, catalog.get name = .ok table := by
  cases hget : catalog.get name with
  | error failure =>
    rw [select_allOf_of_missing hget] at h
    cases h
  | ok table => exact ⟨table, rfl⟩

/-- The answer of a SELECT for all columns has the cells of the rows that the condition selects. -/
theorem select_allOf_eq_ok (hw : table.WellFormed) (hget : catalog.get name = .ok table)
    {answer : Listing} (h : select semantics catalog (.allOf name clause) = .ok answer) :
    (∀ row ∈ table.rows,
      Condition.clauseHolds clause (.row row) = .ok (Condition.selects clause row)) ∧
    answer.rows = (table.rows.filter (Condition.selects clause)).map Row.values := by
  rw [select_allOf hget hw.rows_distinct, filterRows_eq_marks] at h
  obtain ⟨kept, hkept, h⟩ := bind_eq_ok.1 h
  obtain ⟨marks, hmarks, hkept⟩ := bind_eq_ok.1 hkept
  obtain ⟨-, hholds⟩ := Condition.marks_eq_ok hmarks
  have hfiltered := filterRows_eq hholds
  rw [filterRows_eq_marks, hmarks] at hfiltered
  obtain rfl : kept = table.rows.filter (Condition.selects clause) :=
    Except.ok.inj (hkept.symm.trans hfiltered)
  cases h
  refine ⟨hholds, (listing_of_names hw.columns_distinct fun row hrow => ?_).1⟩
  exact hw.rows_shaped row (List.mem_of_mem_filter hrow)

/-- Where the marking fails for a row, a SELECT for all columns fails alike. -/
theorem marks_of_select_allOf (hw : table.WellFormed) (hget : catalog.get name = .ok table)
    {e : SqlError} (h : select semantics catalog (.allOf name clause) = .error e) :
    Condition.marks clause table.rows = .error e := by
  rw [select_allOf hget hw.rows_distinct, filterRows_eq_marks] at h
  cases hmarks : Condition.marks clause table.rows with
  | error failure =>
    rw [hmarks] at h
    exact congrArg Except.error (Except.error.inj h)
  | ok marks =>
    rw [hmarks] at h
    cases h

/-- Where the condition selects no row of a table, a SELECT for all columns lists nothing. -/
theorem select_allOf_of_none (hw : table.WellFormed) (hget : catalog.get name = .ok table)
    (h : ∀ row ∈ table.rows, Condition.clauseHolds clause (.row row) = .ok false) :
    select semantics catalog (.allOf name clause) = .ok ⟨[], []⟩ := by
  have hselects : ∀ row ∈ table.rows, Condition.selects clause row = false :=
    fun row hrow => Condition.clauseHolds_eq_selects (h row hrow)
  have hnone : table.rows.filter (Condition.selects clause) = [] :=
    List.filter_eq_nil_iff.2 fun row hrow => by simp [hselects row hrow]
  have hkept := filterRows_eq fun row hrow => (h row hrow).trans
    (congrArg Except.ok (hselects row hrow).symm)
  rw [select_allOf hget hw.rows_distinct, hkept, hnone]
  rfl

end Query
end SqlEngine
