import SqlEngine.Expr.Eval
import SqlEngine.Proofs.Computation

/-!
# Names that are not in scope

Evaluation takes a column that is not in scope for a missing value. Here it is left open what is
made of such a column; it may also be a failure. Evaluation is the case in which a missing value is
made of all of them. Where the scope has the columns that an expression reads, nothing is made of
any, so the expression has its value in every case.
-/
namespace SqlEngine

/-- The name has a value in the scope, and in a group also in each of its rows. -/
def Scope.Has : Scope → String → Prop
  | .group rows computed, name =>
    ((Scope.group rows computed).column? name).isSome = true ∧
      ∀ row ∈ rows, (row.get? name).isSome = true
  | scope, name => (scope.column? name).isSome = true

theorem Scope.Has.isSome {scope : Scope} {name : String} (h : scope.Has name) :
    (scope.column? name).isSome = true := by
  cases scope with
  | empty | row | layered => exact h
  | group => exact h.1

namespace Expr

mutual

/-- The value of an expression in a scope, with what is made of a column that is not in it. -/
def evalOr (absent : ColumnRef → Except SqlError Value) (scope : Scope) :
    Expr → Except SqlError Value
  | column ref => ((scope.column? ref.name).map .ok).getD (absent ref)
  | literal value => .ok value
  | star => .error (.wording .starOutsideCount)
  | negate operand => do return (← operand.evalOr absent scope).negated
  | binary op left right => do
    let x ← left.evalOr absent scope
    let y ← right.evalOr absent scope
    return op.applyTo x y
  | call f distinct arguments =>
    if f.isAggregate then
      match scope with
      | .group rows _ => evalAggregateOr absent f distinct rows arguments
      | _ => .error (.wording (.aggregateNotAllowed f))
    else do return f.apply (← evalAllOr absent scope arguments)

/-- The values of some expressions in this way. -/
def evalAllOr (absent : ColumnRef → Except SqlError Value) (scope : Scope) :
    List Expr → Except SqlError (List Value)
  | [] => .ok []
  | e :: rest => do
    let v ← e.evalOr absent scope
    let vs ← evalAllOr absent scope rest
    return v :: vs

/-- The value of an aggregate over some rows in this way. -/
def evalAggregateOr (absent : ColumnRef → Except SqlError Value) (f : Function) (distinct : Bool)
    (rows : List Row) : List Expr → Except SqlError Value
  | [] => .ok (.ofNat rows.length)
  | .star :: _ => .ok (.ofNat rows.length)
  | e :: _ => do
    return aggregated f distinct (← rows.mapM fun row => e.evalOr absent (.row row))

end

variable {absent : ColumnRef → Except SqlError Value}

/-- The column is in scope, or a missing value is made of it. -/
def Settled (absent : ColumnRef → Except SqlError Value) (has : String → Prop)
    (refs : List ColumnRef) : Prop :=
  ∀ ref ∈ refs, has ref.name ∨ absent ref = .ok .null

theorem settled_append {has : String → Prop} {refs others : List ColumnRef} :
    Settled absent has (refs ++ others) ↔ Settled absent has refs ∧ Settled absent has others :=
  List.forall_mem_append

mutual

theorem evalOr_eq (scope : Scope) : (e : Expr) → Settled absent scope.Has e.columnRefs →
    e.evalOr absent scope = e.eval scope
  | column ref, h => by
    rw [evalOr, eval]
    rcases h ref List.mem_cons_self with hhas | hnull
    · obtain ⟨v, hv⟩ := Option.isSome_iff_exists.1 hhas.isSome
      rw [hv]
      rfl
    · cases scope.column? ref.name with
      | none => exact hnull
      | some v => rfl
  | literal _, _ | star, _ => rfl
  | negate operand, h => by
    rw [columnRefs] at h
    rw [evalOr, eval, evalOr_eq scope operand h]
  | binary op left right, h => by
    rw [columnRefs, settled_append] at h
    rw [evalOr, eval, evalOr_eq scope left h.1, evalOr_eq scope right h.2]
  | call f distinct arguments, h => by
    rw [columnRefs] at h
    have hall := evalAllOr_eq scope arguments h
    cases scope with
    | empty | row | layered => simp only [evalOr, eval, hall]
    | group rows computed =>
      -- the arguments of an aggregate are evaluated in each row and not in the group
      have hrows : ∀ row ∈ rows, Settled absent (Scope.row row).Has (allColumnRefs arguments) :=
        fun row hrow ref href => (h ref href).imp_left fun hhas => hhas.2 row hrow
      simp only [evalOr, eval, hall, evalAggregateOr_eq f distinct rows arguments hrows]

theorem evalAllOr_eq (scope : Scope) : (es : List Expr) →
    Settled absent scope.Has (allColumnRefs es) → evalAllOr absent scope es = evalAll scope es
  | [], _ => rfl
  | e :: rest, h => by
    rw [allColumnRefs, settled_append] at h
    rw [evalAllOr, evalAll, evalOr_eq scope e h.1, evalAllOr_eq scope rest h.2]

theorem evalAggregateOr_eq (f : Function) (distinct : Bool) (rows : List Row) :
    (es : List Expr) → (∀ row ∈ rows, Settled absent (Scope.row row).Has (allColumnRefs es)) →
      evalAggregateOr absent f distinct rows es = evalAggregate f distinct rows es
  | [], _ => rfl
  | e :: rest, h => by
    have hrows : rows.mapM (fun row => e.evalOr absent (.row row)) =
        rows.mapM fun row => e.eval (.row row) := by
      refine mapM_congr fun row hrow => evalOr_eq (.row row) e ?_
      have hrefs := h row hrow
      rw [allColumnRefs, settled_append] at hrefs
      exact hrefs.1
    cases e with
    | star => rfl
    | column | literal | negate | binary | call => simp only [evalAggregateOr, evalAggregate, hrows]

end

/-- Evaluation makes a missing value of a column that is not in scope. -/
theorem evalOr_null (scope : Scope) (e : Expr) :
    e.evalOr (fun _ => .ok .null) scope = e.eval scope :=
  evalOr_eq scope e fun _ _ => .inr rfl

/-- Where the scope has all columns that an expression reads, nothing is made of any. -/
theorem evalOr_of_has {scope : Scope} {e : Expr} (h : ∀ ref ∈ e.columnRefs, scope.Has ref.name) :
    e.evalOr absent scope = e.eval scope :=
  evalOr_eq scope e fun ref href => .inl (h ref href)

end Expr
end SqlEngine
