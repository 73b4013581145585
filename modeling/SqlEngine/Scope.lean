import SqlEngine.Row

/-!
# Scopes

Where the names in an expression get their values: from nowhere, from a row, from a result row laid
over the row it was made from, or from a group of rows with the values already computed for it.
-/
namespace SqlEngine

/-- What an expression is evaluated in. -/
inductive Scope where
  | empty
  | row (row : Row)
  | layered (top base : Row)
  | group (rows : List Row) (computed : Row)
deriving Inhabited

/-- The value of a name. The upper row is looked at before the lower one, and what is computed for
a group before its first row. -/
def Scope.column? (scope : Scope) (name : String) : Option Value :=
  match scope with
  | .empty => none
  | .row r => r.get? name
  | .layered top base => (top.get? name).or (base.get? name)
  | .group rows computed => (computed.get? name).or (rows.head?.bind (·.get? name))

end SqlEngine
