import SqlEngine.Change
import SqlEngine.Proofs.Catalog.WellFormed
import SqlEngine.Proofs.Query.Stages

/-!
# Failures for want of a column

Evaluation never fails for want of a column: a name that is not in scope is a missing value there.
What a statement fails for in this way is a name that it looks for in the columns of its tables
before it touches a row, so a statement that names a column of its table does not fail for want of
it, whatever else it does.
-/
namespace SqlEngine

/-- A computation does not fail for want of the column with the given name. -/
def FindsColumn {α : Type} (name : String) (x : Except SqlError α) : Prop :=
  x ≠ .error (.unknownColumn name)

variable {α β : Type} {name : String}

namespace FindsColumn

theorem ok (a : α) : FindsColumn name (.ok a) := nofun

theorem unknown {other : String} (h : other ≠ name) :
    FindsColumn name (.error (.unknownColumn other) : Except SqlError α) := by
  intro heq
  exact h (SchemaError.unknownColumn.inj (SqlError.schema.inj (Except.error.inj heq)))

theorem bind {x : Except SqlError α} {f : α → Except SqlError β} (hx : FindsColumn name x)
    (hf : ∀ a, x = .ok a → FindsColumn name (f a)) : FindsColumn name (x >>= f) := by
  cases x with
  | ok a => exact hf a rfl
  | error e => exact fun h => hx (congrArg Except.error (Except.error.inj h))

theorem map {x : Except SqlError α} (hx : FindsColumn name x) (f : α → β) :
    FindsColumn name (do return f (← x)) :=
  hx.bind fun a _ => .ok (f a)

theorem mapM {f : α → Except SqlError β} {as : List α} (h : ∀ a ∈ as, FindsColumn name (f a)) :
    FindsColumn name (as.mapM f) := by
  induction as with
  | nil => exact .ok []
  | cons a rest ih =>
    obtain ⟨hfirst, hrest⟩ := List.forall_mem_cons.1 h
    rw [List.mapM_cons]
    exact hfirst.bind fun b _ => (ih hrest).map (b :: ·)

theorem foldlM {f : β → α → Except SqlError β} (h : ∀ b a, FindsColumn name (f b a))
    (as : List α) (start : β) : FindsColumn name (as.foldlM f start) := by
  induction as generalizing start with
  | nil => exact .ok start
  | cons a rest ih =>
    rw [List.foldlM_cons]
    exact (h start a).bind fun b _ => ih b

end FindsColumn

namespace Expr

mutual

/-- Evaluation fails in its wording alone. -/
theorem findsColumn_eval (scope : Scope) : (e : Expr) → FindsColumn name (e.eval scope)
  | column _ => .ok _
  | literal _ => .ok _
  | star => nofun
  | negate operand => by
    rw [eval]
    exact (findsColumn_eval scope operand).map _
  | binary op left right => by
    rw [eval]
    exact (findsColumn_eval scope left).bind fun x _ => (findsColumn_eval scope right).map _
  | call f distinct arguments => by
    have haggregate := fun rows => findsColumn_evalAggregate f distinct rows arguments
    have hall := findsColumn_evalAll scope arguments
    unfold eval
    split
    · split
      · exact haggregate _
      · nofun
    · exact hall.map _

theorem findsColumn_evalAll (scope : Scope) :
    (es : List Expr) → FindsColumn name (evalAll scope es)
  | [] => .ok []
  | e :: rest => by
    rw [evalAll]
    exact (findsColumn_eval scope e).bind fun v _ => (findsColumn_evalAll scope rest).map _

theorem findsColumn_evalAggregate (f : Function) (distinct : Bool) (rows : List Row) :
    (es : List Expr) → FindsColumn name (evalAggregate f distinct rows es)
  | [] => .ok _
  | e :: _ => by
    have hrows : FindsColumn name (rows.mapM fun row => e.eval (.row row)) :=
      .mapM fun row _ => findsColumn_eval (.row row) e
    cases e with
    | star => exact .ok _
    | column | literal | negate | binary | call =>
      rw [evalAggregate]
      · exact hrows.map _
      · nofun

end

theorem findsColumn_evalOperand (scope : Scope) (e : Expr) :
    FindsColumn name (e.evalOperand scope) := by
  unfold evalOperand
  split
  · exact .ok _
  · exact findsColumn_eval scope e

end Expr

namespace Condition

theorem findsColumn_findItem (scope : Scope) (value : Value) (items : List Expr) :
    FindsColumn name (findItem scope value items) := by
  induction items with
  | nil => exact .ok false
  | cons item rest ih =>
    rw [findItem]
    refine (Expr.findsColumn_evalOperand scope item).bind fun v _ => ?_
    split
    · exact .ok true
    · exact ih

mutual

theorem findsColumn_holds (scope : Scope) : (c : Condition) → FindsColumn name (c.holds scope)
  | disjunction branches => by
    rw [holds]
    exact findsColumn_anyHolds scope branches
  | conjunction parts => by
    rw [holds]
    exact findsColumn_allHold scope parts
  | negation inner => by
    rw [holds]
    exact (findsColumn_holds scope inner).map _
  | isNull subject negated => by
    rw [holds]
    exact (Expr.findsColumn_eval scope subject).map _
  | between subject low high negated => by
    rw [holds]
    exact (Expr.findsColumn_eval scope subject).bind fun _ _ =>
      (Expr.findsColumn_evalOperand scope low).bind fun _ _ =>
        (Expr.findsColumn_evalOperand scope high).map _
  | oneOf subject items negated => by
    rw [holds]
    refine (Expr.findsColumn_eval scope subject).bind fun value _ => ?_
    split
    · exact .ok false
    · exact (findsColumn_findItem scope value items).map _
  | like subject pattern negated => by
    rw [holds]
    exact (Expr.findsColumn_eval scope subject).bind fun _ _ =>
      (Expr.findsColumn_evalOperand scope pattern).map _
  | compare op left right => by
    rw [holds]
    exact (Expr.findsColumn_eval scope left).bind fun _ _ =>
      (Expr.findsColumn_evalOperand scope right).map _
  | unrecognized _ => by
    rw [holds]
    exact .ok true

theorem findsColumn_anyHolds (scope : Scope) :
    (cs : List Condition) → FindsColumn name (anyHolds scope cs)
  | [] => .ok false
  | c :: rest => by
    have hrest := findsColumn_anyHolds scope rest
    rw [anyHolds]
    refine (findsColumn_holds scope c).bind fun holds _ => ?_
    split
    · exact .ok true
    · exact hrest

theorem findsColumn_allHold (scope : Scope) :
    (cs : List Condition) → FindsColumn name (allHold scope cs)
  | [] => .ok true
  | c :: rest => by
    have hrest := findsColumn_allHold scope rest
    rw [allHold]
    refine (findsColumn_holds scope c).bind fun holds _ => ?_
    split
    · exact hrest
    · exact .ok false

end

theorem findsColumn_clauseHolds (clause : Option Condition) (scope : Scope) :
    FindsColumn name (clauseHolds clause scope) := by
  cases clause with
  | none => exact .ok true
  | some c => exact findsColumn_holds scope c

end Condition

theorem Catalog.findsColumn_get (catalog : Catalog) (table : String) :
    FindsColumn name (catalog.get table) := by
  unfold get
  split
  · exact .ok _
  · nofun

namespace Query

theorem findsColumn_filterRows (clause : Option Condition) (rows : List Row) :
    FindsColumn name (filterRows clause rows) := by
  induction rows with
  | nil => exact .ok []
  | cons row rest ih =>
    rw [filterRows]
    exact (Condition.findsColumn_clauseHolds clause _).bind fun holds _ => ih.map _

theorem findsColumn_project (items : List ListItem) (scope : Scope) (source : Option Row) :
    FindsColumn name (project items scope source) := by
  refine .foldlM (fun row item => ?_) items Row.empty
  cases item with
  | star | columns => exact .ok _
  | expr own e => exact (Expr.findsColumn_eval scope e).map _

theorem findsColumn_sortKeys (orderBy : List OrderItem) (scope : Scope) :
    FindsColumn name (sortKeys orderBy scope) :=
  .mapM fun item _ => Expr.findsColumn_eval scope item.expr

/-- No result row fails for want of a column. -/
theorem findsColumn_outputRows (s : Select) (items : List ListItem) (rows : List Row) :
    FindsColumn name (outputRows s items rows) := by
  rw [outputRows]
  split
  · refine FindsColumn.map (.mapM fun group _ => ?_) _
    refine (findsColumn_project items _ _).bind fun row _ => ?_
    refine (Condition.findsColumn_clauseHolds _ _).bind fun holds _ => ?_
    split
    · exact (findsColumn_sortKeys _ _).map _
    · exact .ok none
  · refine .mapM fun row _ => ?_
    exact (findsColumn_project items _ _).bind fun result _ => (findsColumn_sortKeys _ _).map _

theorem findsColumn_resolveItem (sources : List Source) (item : SelectItem) :
    FindsColumn name (resolveItem sources item) := by
  unfold resolveItem
  split
  · exact .ok _
  · split
    · exact .ok _
    · nofun
  · exact .ok _

/-- Columns that one of the tables has are found. -/
theorem findsColumn_checkColumns {tables : List Table} {table : Table} (hmem : table ∈ tables)
    (hcolumn : table.hasColumn name = true) (s : Select) :
    FindsColumn name (checkColumns tables s) := by
  unfold checkColumns
  split
  · next ref href =>
    refine .unknown fun hname => ?_
    have hmissing := List.find?_some href
    have hfound : tables.any (·.hasColumn ref.name) = true :=
      List.any_eq_true.2 ⟨table, hmem, hname ▸ hcolumn⟩
    rw [hfound] at hmissing
    cases hmissing
  · exact .ok ()

/-- A SELECT does not fail for want of a column of a table that it reads. -/
theorem findsColumn_select {catalog : Catalog} {table : Table} {own : String}
    (hfind : catalog.find? own = some table) (hcolumn : table.hasColumn name = true)
    (semantics : JoinSemantics) {s : Select}
    (hreads : own ∈ s.source.name :: s.joins.map (·.table.name)) :
    FindsColumn name (select semantics catalog s) := by
  have hsources : FindsColumn name (sources catalog s) := by
    refine (catalog.findsColumn_get _).bind fun base _ => ?_
    refine FindsColumn.map (.mapM fun clause _ => ?_) _
    exact (catalog.findsColumn_get _).map _
  rw [select_eq]
  refine hsources.bind fun ⟨base, joined⟩ hsources => ?_
  have hmem : table ∈ base :: joined.map (·.2) := by
    obtain ⟨found, hbase, hsources⟩ := bind_eq_ok.1 hsources
    obtain ⟨steps, hsteps, hsources⟩ := bind_eq_ok.1 hsources
    cases hsources
    have hget := Catalog.get_eq_ok.2 hfind
    rcases List.mem_cons.1 hreads with rfl | hjoin
    · rw [Except.ok.inj (hget.symm.trans hbase)]
      exact List.mem_cons_self
    · obtain ⟨clause, hclause, rfl⟩ := List.mem_map.1 hjoin
      have hstep := mem_of_mapM hsteps hclause (bind_of_ok hget _)
      exact List.mem_cons_of_mem base (List.mem_map_of_mem hstep)
  refine (findsColumn_checkColumns hmem hcolumn s).bind fun _ _ => ?_
  refine FindsColumn.bind (.mapM fun item _ => findsColumn_resolveItem _ item) fun items _ => ?_
  refine (findsColumn_filterRows _ _).bind fun rows _ => ?_
  exact (findsColumn_outputRows s items rows).map _

end Query
end SqlEngine
