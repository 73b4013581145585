import SqlEngine.Condition.Eval
import SqlEngine.Proofs.Computation
import SqlEngine.Proofs.Row.Without

/-!
# Expressions and conditions without a column

An expression that reads other columns has the same value, and a condition that reads other columns
holds alike, whether the rows in scope have a column or not. This is so in every scope, also where a
name that is not found stands for its own text, and for the rows of a group.
-/
namespace SqlEngine

/-- The references are to other columns. -/
def ColumnRef.AllOther (column : String) (refs : List ColumnRef) : Prop :=
  ∀ ref ∈ refs, Text.isOther column ref.name = true

theorem ColumnRef.allOther_append {column : String} {refs others : List ColumnRef} :
    AllOther column (refs ++ others) ↔ AllOther column refs ∧ AllOther column others :=
  List.forall_mem_append

mutual

/-- The columns that a condition reads, from left to right. -/
def Condition.columnRefs : Condition → List ColumnRef
  | .disjunction branches => Condition.allColumnRefs branches
  | .conjunction parts => Condition.allColumnRefs parts
  | .negation inner => inner.columnRefs
  | .isNull subject _ => subject.columnRefs
  | .between subject low high _ => subject.columnRefs ++ (low.columnRefs ++ high.columnRefs)
  | .oneOf subject items _ => subject.columnRefs ++ Expr.allColumnRefs items
  | .like subject pattern _ => subject.columnRefs ++ pattern.columnRefs
  | .compare _ left right => left.columnRefs ++ right.columnRefs
  | .unrecognized _ => []

/-- The columns that some conditions read. -/
def Condition.allColumnRefs : List Condition → List ColumnRef
  | [] => []
  | c :: rest => c.columnRefs ++ Condition.allColumnRefs rest

end

open ColumnRef

variable {column : String}

namespace Expr

mutual

/-- An expression over other columns has the same value, in every scope. -/
theorem eval_without (scope : Scope) :
    (e : Expr) → AllOther column e.columnRefs → e.eval (scope.without column) = e.eval scope
  | .column ref, h => by
    rw [eval, eval, scope.column?_without (h ref List.mem_cons_self)]
  | literal _, _ | star, _ => rfl
  | negate operand, h => by
    rw [columnRefs] at h
    rw [eval, eval, eval_without scope operand h]
  | binary op left right, h => by
    rw [columnRefs, allOther_append] at h
    rw [eval, eval, eval_without scope left h.1, eval_without scope right h.2]
  | call f distinct arguments, h => by
    rw [columnRefs] at h
    have hall := evalAll_without scope arguments h
    cases scope with
    | empty => rfl
    | row | layered =>
      rw [Scope.without] at hall ⊢
      simp only [eval, hall]
    | group rows computed =>
      rw [Scope.without] at hall ⊢
      simp only [eval, hall, evalAggregate_without f distinct rows arguments h]

theorem evalAll_without (scope : Scope) :
    (es : List Expr) → AllOther column (allColumnRefs es) →
      evalAll (scope.without column) es = evalAll scope es
  | [], _ => rfl
  | e :: rest, h => by
    rw [allColumnRefs, allOther_append] at h
    rw [evalAll, evalAll, eval_without scope e h.1, evalAll_without scope rest h.2]

theorem evalAggregate_without (f : Function) (distinct : Bool) (rows : List Row) :
    (es : List Expr) → AllOther column (allColumnRefs es) →
      evalAggregate f distinct (rows.map (·.without column)) es = evalAggregate f distinct rows es
  | [], _ => by rw [evalAggregate, evalAggregate, List.length_map]
  | e :: rest, h => by
    rw [allColumnRefs, allOther_append] at h
    have hrows : (rows.map (·.without column)).mapM (fun row => e.eval (.row row)) =
        rows.mapM fun row => e.eval (.row row) := by
      rw [List.mapM_map]
      exact mapM_congr fun row _ => eval_without (.row row) e h.1
    cases e with
    | star => rw [evalAggregate, evalAggregate, List.length_map]
    | column | literal | negate | binary | call => simp only [evalAggregate, hrows]

end

/-- A right side over other columns has the same value, also where it stands for its own text. -/
theorem evalOperand_without (scope : Scope) {e : Expr} (h : AllOther column e.columnRefs) :
    e.evalOperand (scope.without column) = e.evalOperand scope := by
  have heval := eval_without scope e h
  cases e with
  | column ref =>
    obtain ⟨qualifier?, name⟩ := ref
    cases qualifier? with
    | none =>
      rw [evalOperand, evalOperand, scope.column?_without (h _ List.mem_cons_self)]
    | some qualifier => exact heval
  | star | literal | negate | binary | call => exact heval

end Expr

namespace Condition

theorem findItem_without (scope : Scope) (value : Value) {items : List Expr}
    (h : AllOther column (Expr.allColumnRefs items)) :
    findItem (scope.without column) value items = findItem scope value items := by
  induction items with
  | nil => rfl
  | cons item rest ih =>
    rw [Expr.allColumnRefs, allOther_append] at h
    rw [findItem, findItem, Expr.evalOperand_without scope h.1, ih h.2]

mutual

/-- A condition over other columns holds alike, in every scope. -/
theorem holds_without (scope : Scope) :
    (c : Condition) → AllOther column c.columnRefs →
      c.holds (scope.without column) = c.holds scope
  | disjunction branches, h => by
    rw [columnRefs] at h
    rw [holds, holds, anyHolds_without scope branches h]
  | conjunction parts, h => by
    rw [columnRefs] at h
    rw [holds, holds, allHold_without scope parts h]
  | negation inner, h => by
    rw [columnRefs] at h
    rw [holds, holds, holds_without scope inner h]
  | isNull subject negated, h => by
    rw [columnRefs] at h
    rw [holds, holds, Expr.eval_without scope subject h]
  | between subject low high negated, h => by
    rw [columnRefs, allOther_append, allOther_append] at h
    obtain ⟨hsubject, hlow, hhigh⟩ := h
    rw [holds, holds, Expr.eval_without scope subject hsubject, Expr.evalOperand_without scope hlow,
      Expr.evalOperand_without scope hhigh]
  | oneOf subject items negated, h => by
    rw [columnRefs, allOther_append] at h
    simp only [holds, Expr.eval_without scope subject h.1, findItem_without scope _ h.2]
  | like subject pattern negated, h => by
    rw [columnRefs, allOther_append] at h
    rw [holds, holds, Expr.eval_without scope subject h.1, Expr.evalOperand_without scope h.2]
  | compare op left right, h => by
    rw [columnRefs, allOther_append] at h
    rw [holds, holds, Expr.eval_without scope left h.1, Expr.evalOperand_without scope h.2]
  | unrecognized _, _ => rfl

theorem anyHolds_without (scope : Scope) :
    (cs : List Condition) → AllOther column (allColumnRefs cs) →
      anyHolds (scope.without column) cs = anyHolds scope cs
  | [], _ => rfl
  | c :: rest, h => by
    rw [allColumnRefs, allOther_append] at h
    rw [anyHolds, anyHolds, holds_without scope c h.1, anyHolds_without scope rest h.2]

theorem allHold_without (scope : Scope) :
    (cs : List Condition) → AllOther column (allColumnRefs cs) →
      allHold (scope.without column) cs = allHold scope cs
  | [], _ => rfl
  | c :: rest, h => by
    rw [allColumnRefs, allOther_append] at h
    rw [allHold, allHold, holds_without scope c h.1, allHold_without scope rest h.2]

end

/-- The columns that a clause reads, none if it is not there. -/
def clauseRefs (clause : Option Condition) : List ColumnRef := (clause.map columnRefs).getD []

theorem clauseHolds_without (scope : Scope) {clause : Option Condition}
    (h : AllOther column (clauseRefs clause)) :
    clauseHolds clause (scope.without column) = clauseHolds clause scope := by
  cases clause with
  | none => rfl
  | some c => exact holds_without scope c h

end Condition

end SqlEngine
