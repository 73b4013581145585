import SqlEngine.Error
import SqlEngine.Expr
import SqlEngine.Function.Scalar
import SqlEngine.Grouping
import SqlEngine.Scope

/-!
# Values of expressions

An expression has a value in a scope. A name that is not in scope is missing; arithmetic on what is
no number is missing too. The only failures are those of the wording: an aggregate where there is no
group, and a star outside COUNT.
-/
namespace SqlEngine

/-- The result of an operator on two values, which is missing unless both are numbers. -/
def Operator.applyTo (op : Operator) (left right : Value) : Value :=
  match left.number?, right.number? with
  | some x, some y => .number (op.apply x y)
  | _, _ => .null

/-- The value behind a minus sign. -/
def Value.negated (v : Value) : Value := (v.number?.map fun x => Value.number (-x)).getD .null

namespace Expr

/-- What an aggregate makes of the values of its argument. -/
def aggregated (f : Function) (distinct : Bool) (values : List Value) : Value :=
  Aggregate.compute f (if distinct then distinctValues values else values)

mutual

/-- The value of an expression in a scope. -/
def eval (scope : Scope) : Expr → Except SqlError Value
  | column ref => .ok ((scope.column? ref.name).getD .null)
  | literal value => .ok value
  | star => .error (.wording .starOutsideCount)
  | negate operand => do return (← operand.eval scope).negated
  | binary op left right => do
    let x ← left.eval scope
    let y ← right.eval scope
    return op.applyTo x y
  | call f distinct arguments =>
    if f.isAggregate then
      match scope with
      | .group rows _ => evalAggregate f distinct rows arguments
      | _ => .error (.wording (.aggregateNotAllowed f))
    else do return f.apply (← evalAll scope arguments)

/-- The values of some expressions, from left to right. -/
def evalAll (scope : Scope) : List Expr → Except SqlError (List Value)
  | [] => .ok []
  | e :: rest => do
    let v ← e.eval scope
    let vs ← evalAll scope rest
    return v :: vs

/-- The value of an aggregate over some rows. Without an argument, or with a star, it is the number
of rows. -/
def evalAggregate (f : Function) (distinct : Bool) (rows : List Row) :
    List Expr → Except SqlError Value
  | [] => .ok (.ofNat rows.length)
  | .star :: _ => .ok (.ofNat rows.length)
  | e :: _ => do return aggregated f distinct (← rows.mapM fun row => e.eval (.row row))

end

/-- The value of an expression on the right side of a condition or among the values of a statement,
where a bare name that is not in scope stands for its own text. -/
def evalOperand (scope : Scope) : Expr → Except SqlError Value
  | column ⟨none, name⟩ => .ok ((scope.column? name).getD (.text name))
  | e => e.eval scope

end Expr
end SqlEngine
