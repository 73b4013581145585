import SqlEngine.Expr

/-!
# Conditions

What stands after WHERE and HAVING. A condition in none of the known forms is kept as its text and
counts as true.
-/
namespace SqlEngine

/-- The comparison operators. -/
inductive Comparison where
  | eq | ne | lt | gt | le | ge
deriving DecidableEq, Repr

/-- A condition. The negated forms `IS NOT NULL`, `NOT BETWEEN`, `NOT IN` and `NOT LIKE` are told
by a flag; they are not the negations of the plain forms where values are missing. -/
inductive Condition where
  | disjunction (branches : List Condition)
  | conjunction (parts : List Condition)
  | negation (inner : Condition)
  | isNull (subject : Expr) (negated : Bool)
  | between (subject low high : Expr) (negated : Bool)
  | oneOf (subject : Expr) (items : List Expr) (negated : Bool)
  | like (subject pattern : Expr) (negated : Bool)
  | compare (op : Comparison) (left right : Expr)
  | unrecognized (text : String)
deriving Inhabited

end SqlEngine
