import SqlEngine.Condition
import SqlEngine.Expr.Eval
import SqlEngine.Pattern

/-!
# When conditions hold

A condition holds or does not hold in a scope; there is no third case. A missing value makes every
comparison, BETWEEN and LIKE false, the negated forms too. IN and NOT IN are false of a missing
value, but pass over the missing ones among their items. Branches and parts are looked at from left
to right, and not further than needed.
-/
namespace SqlEngine

/-- A comparison holds between two values. -/
def Comparison.holds (op : Comparison) (left right : Value) : Bool :=
  match op with
  | .eq => left.looselyEqual? right == some true
  | .ne => left.looselyEqual? right == some false
  | .lt => left.compare? right == some .lt
  | .gt => left.compare? right == some .gt
  | .le => (left.compare? right).any Ordering.isLE
  | .ge => (left.compare? right).any Ordering.isGE

namespace Condition

/-- A value lies between two bounds, or, negated, is comparable with both and lies outside. -/
def betweenHolds (negated : Bool) (value low high : Value) : Bool :=
  match value.compare? low, value.compare? high with
  | some atLow, some atHigh => (atLow.isGE && atHigh.isLE) != negated
  | _, _ => false

/-- Whether one of the items is loosely equal to a value; items behind that one are not
evaluated. -/
def findItem (scope : Scope) (value : Value) : List Expr → Except SqlError Bool
  | [] => .ok false
  | item :: rest => do
    let v ← item.evalOperand scope
    if value.looselyEqual? v == some true then return true else findItem scope value rest

/-- A value is like a pattern, or, negated, is not. -/
def likeHolds (negated : Bool) (value pattern : Value) : Bool :=
  if value.isNull || pattern.isNull then false
  else isLike value.display pattern.display != negated

mutual

/-- Whether a condition holds in a scope. -/
def holds (scope : Scope) : Condition → Except SqlError Bool
  | disjunction branches => anyHolds scope branches
  | conjunction parts => allHold scope parts
  | negation inner => do return !(← inner.holds scope)
  | isNull subject negated => do return (← subject.eval scope).isNull != negated
  | between subject low high negated => do
    let value ← subject.eval scope
    let low ← low.evalOperand scope
    let high ← high.evalOperand scope
    return betweenHolds negated value low high
  | oneOf subject items negated => do
    let value ← subject.eval scope
    if value.isNull then return false
    else return (← findItem scope value items) != negated
  | like subject pattern negated => do
    let value ← subject.eval scope
    let pattern ← pattern.evalOperand scope
    return likeHolds negated value pattern
  | compare op left right => do
    let x ← left.eval scope
    let y ← right.evalOperand scope
    return op.holds x y
  | unrecognized _ => .ok true

/-- Whether one of the branches holds. -/
def anyHolds (scope : Scope) : List Condition → Except SqlError Bool
  | [] => .ok false
  | c :: rest => do if ← c.holds scope then return true else anyHolds scope rest

/-- Whether all of the parts hold. -/
def allHold (scope : Scope) : List Condition → Except SqlError Bool
  | [] => .ok true
  | c :: rest => do if ← c.holds scope then allHold scope rest else return false

end

/-- A clause that is not there holds everywhere. -/
def clauseHolds (clause : Option Condition) (scope : Scope) : Except SqlError Bool :=
  match clause with
  | none => .ok true
  | some c => c.holds scope

/-- The marks that a clause gives to some rows, unless its evaluation fails for one of them. -/
def marks (clause : Option Condition) (rows : List Row) : Except SqlError (List Bool) :=
  rows.mapM fun row => clauseHolds clause (.row row)

end Condition
end SqlEngine
