import SqlEngine.Proofs.Computation
import SqlEngine.Proofs.Grouping
import SqlEngine.Query

/-!
# The stages of a query

A query that is answered has passed through all of its stages: its tables were found, its rows
joined and filtered, and a result row was made of each row or group. What is shown is taken from
these result rows by dropping repetitions, sorting and cutting out a page, so it holds no other
rows.
-/
namespace SqlEngine

namespace Query

/-- One result row for each row or for each group of rows. -/
def outputRows (s : Select) (items : List ListItem) (rows : List Row) :
    Except SqlError (List Projected) :=
  if isGrouped s then projectGroups s items rows else projectRows s items rows

/-- What a query comes by on its way to an answer: its tables, its resolved select list, the joined
rows that pass its filter, and the result rows made of them. -/
structure Stages (semantics : JoinSemantics) (catalog : Catalog) (s : Select) where
  base : Table
  joined : List (JoinClause × Table)
  items : List ListItem
  rows : List Row
  output : List Projected
  sources_eq : sources catalog s = .ok (base, joined)
  checked : checkColumns (base :: joined.map (·.2)) s = .ok ()
  items_eq : s.items.mapM (resolveItem
    ((s.source, base) :: joined.map fun (clause, table) => (clause.table, table))) = .ok items
  rows_eq : filterRows s.filter (joinedRows semantics base joined).1 = .ok rows
  output_eq : outputRows s items rows = .ok output

namespace Stages

variable {semantics : JoinSemantics} {catalog : Catalog} {s : Select}

/-- The result rows that are shown, in the order in which they are shown. -/
def shown (q : Stages semantics catalog s) : List Projected :=
  page s.offset s.limit
    (sortRows s.orderBy (if s.distinct then distinctRows q.output else q.output))

end Stages

variable {semantics : JoinSemantics} {catalog : Catalog} {s : Select}

/-- A query goes through its stages one after another, and fails with the first of them that
does. -/
theorem select_eq (semantics : JoinSemantics) (catalog : Catalog) (s : Select) :
    select semantics catalog s = (do
      let (base, joined) ← sources catalog s
      checkColumns (base :: joined.map (·.2)) s
      let items ← s.items.mapM (resolveItem
        ((s.source, base) :: joined.map fun (clause, table) => (clause.table, table)))
      let rows ← filterRows s.filter (joinedRows semantics base joined).1
      let output ← outputRows s items rows
      let shown := page s.offset s.limit
        (sortRows s.orderBy (if s.distinct then distinctRows output else output))
      return listing (shown.map (·.row))) := by
  rw [select, resultRows]
  simp only [outputRows]
  cases isGrouped s <;> simp only [if_true, Bool.false_eq_true, if_false, bind_assoc, pure_bind]

/-- An answer lists the rows that are shown. -/
theorem exists_stages {answer : Listing} (h : select semantics catalog s = .ok answer) :
    ∃ q : Stages semantics catalog s, answer = listing (q.shown.map (·.row)) := by
  rw [select_eq] at h
  obtain ⟨⟨base, joined⟩, hsources, h⟩ := bind_eq_ok.1 h
  obtain ⟨⟨⟩, hchecked, h⟩ := bind_eq_ok.1 h
  obtain ⟨items, hitems, h⟩ := bind_eq_ok.1 h
  obtain ⟨rows, hrows, h⟩ := bind_eq_ok.1 h
  obtain ⟨output, houtput, h⟩ := bind_eq_ok.1 h
  cases h
  exact ⟨⟨base, joined, items, rows, output, hsources, hchecked, hitems, hrows, houtput⟩, rfl⟩

/-- The answer of a query that passes through all stages. -/
theorem Stages.select_eq_ok (q : Stages semantics catalog s) :
    select semantics catalog s = .ok (listing (q.shown.map (·.row))) := by
  rw [select_eq]
  refine (bind_of_ok q.sources_eq _).trans ((bind_of_ok q.checked _).trans ?_)
  refine (bind_of_ok q.items_eq _).trans ((bind_of_ok q.rows_eq _).trans ?_)
  exact bind_of_ok q.output_eq _

theorem mem_of_mem_page {α : Type} {offset limit : Option Nat} {rows : List α} {row : α}
    (h : row ∈ page offset limit rows) : row ∈ rows := by
  unfold page at h
  dsimp only at h
  split at h
  · exact List.mem_of_mem_drop (List.mem_of_mem_take h)
  · exact List.mem_of_mem_drop h

theorem mem_of_mem_sortRows {orderBy : List OrderItem} {rows : List Projected} {row : Projected}
    (h : row ∈ sortRows orderBy rows) : row ∈ rows := by
  rw [sortRows] at h
  split at h
  · exact h
  · exact List.mem_mergeSort.1 h

/-- What is shown was made of the rows. -/
theorem Stages.mem_output {q : Stages semantics catalog s} {row : Projected} (h : row ∈ q.shown) :
    row ∈ q.output := by
  have hresult := mem_of_mem_sortRows (mem_of_mem_page h)
  split at hresult
  · exact (firstsBy_sublist _ q.output).subset hresult
  · exact hresult

/-- A query is not refused where each column that it names is one of a table. -/
theorem checkColumns_eq_ok {tables : List Table} :
    checkColumns tables s = .ok () ↔
      ∀ ref ∈ namedColumns s, ∃ table ∈ tables, table.hasColumn ref.name = true := by
  have hknown : (∀ ref ∈ namedColumns s, ∃ table ∈ tables, table.hasColumn ref.name = true) ↔
      (namedColumns s).find? (fun ref => !tables.any (·.hasColumn ref.name)) = none := by
    simp only [List.find?_eq_none, Bool.not_eq_true', Bool.not_eq_false, List.any_eq_true]
  rw [hknown, checkColumns]
  split
  · next hfound => simp [hfound]
  · next hnone => simp [hnone]

/-- Otherwise it is refused for the first column that is one of no table. -/
theorem checkColumns_cases (tables : List Table) (s : Select) :
    checkColumns tables s = .ok () ∨ ∃ front first behind,
      namedColumns s = front ++ first :: behind ∧
      (∀ ref ∈ front, ∃ table ∈ tables, table.hasColumn ref.name = true) ∧
      (∀ table ∈ tables, table.hasColumn first.name = false) ∧
      checkColumns tables s = .error (.unknownColumn first.name) := by
  rw [checkColumns]
  split
  · next first hfound =>
    obtain ⟨hfirst, front, behind, hsplit, hfront⟩ := List.find?_eq_some_iff_append.1 hfound
    refine .inr ⟨front, first, behind, hsplit, fun ref href => ?_, ?_, rfl⟩
    · exact List.any_eq_true.1 (by simpa using hfront ref href)
    · simpa using hfirst
  · exact .inl rfl

/-- What passes a filter was there before. -/
theorem filterRows_sublist {clause : Option Condition} {rows kept : List Row}
    (h : filterRows clause rows = .ok kept) : kept.Sublist rows := by
  induction rows generalizing kept with
  | nil =>
    cases h
    exact .slnil
  | cons row rest ih =>
    obtain ⟨holds, -, h⟩ := bind_eq_ok.1 h
    obtain ⟨others, hothers, h⟩ := bind_eq_ok.1 h
    cases h
    cases holds with
    | true => exact (ih hothers).cons_cons row
    | false => exact (ih hothers).cons row

/-- A filter that fails for none of the rows keeps those that pass it. -/
theorem filterRows_eq {clause : Option Condition} {passes : Row → Bool} {rows : List Row}
    (h : ∀ row ∈ rows, Condition.clauseHolds clause (.row row) = .ok (passes row)) :
    filterRows clause rows = .ok (rows.filter passes) := by
  induction rows with
  | nil => rfl
  | cons row rest ih =>
    obtain ⟨hfirst, hrest⟩ := List.forall_mem_cons.1 h
    refine bind_eq_ok.2 ⟨passes row, hfirst, bind_eq_ok.2 ⟨_, ih hrest, ?_⟩⟩
    cases hrow : passes row with
    | true => rw [List.filter_cons_of_pos hrow]; rfl
    | false => rw [List.filter_cons_of_neg (by simp [hrow])]; rfl

end Query
end SqlEngine
