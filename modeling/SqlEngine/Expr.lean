import SqlEngine.Function
import SqlEngine.Value

/-!
# Expressions

Scalar expressions over the columns of a row, their canonical text, and what can be told of them
without evaluating them.
-/
namespace SqlEngine

/-- A column named in a statement. The qualifier, in small letters, says which table is meant; it
matters only for the sides of a join condition. The name keeps its spelling. -/
structure ColumnRef where
  qualifier : Option String
  name : String
deriving DecidableEq, Inhabited

/-- The arithmetic operators. -/
inductive Operator where
  | add | sub | mul | div
deriving DecidableEq, Repr

namespace Operator

/-- How tightly an operator binds; products bind tighter than sums. -/
def precedence : Operator → Nat
  | add | sub => 4
  | mul | div => 5

def symbol : Operator → String
  | add => "+" | sub => "-" | mul => "*" | div => "/"

/-- What an operator does to two numbers; division by zero follows the rules of doubles. -/
def apply : Operator → Float → Float → Float
  | add, x, y => x + y
  | sub, x, y => x - y
  | mul, x, y => x * y
  | div, x, y => x / y

end Operator

/-- An expression. `star` is the argument of `COUNT(*)`; `distinct` is set in
`COUNT(DISTINCT x)`. -/
inductive Expr where
  | column (ref : ColumnRef)
  | literal (value : Value)
  | star
  | negate (operand : Expr)
  | binary (op : Operator) (left right : Expr)
  | call (f : Function) (distinct : Bool) (arguments : List Expr)
deriving Inhabited

namespace Expr

mutual
/-- A function over the rows of a group is called somewhere in the expression. -/
def containsAggregate : Expr → Bool
  | column _ | literal _ | star => false
  | negate operand => operand.containsAggregate
  | binary _ left right => left.containsAggregate || right.containsAggregate
  | call f _ arguments => f.isAggregate || anyContainsAggregate arguments

/-- Such a function is called in one of the expressions. -/
def anyContainsAggregate : List Expr → Bool
  | [] => false
  | e :: rest => e.containsAggregate || anyContainsAggregate rest
end

mutual
/-- The columns that an expression reads, from left to right. -/
def columnRefs : Expr → List ColumnRef
  | column ref => [ref]
  | literal _ | star => []
  | negate operand => operand.columnRefs
  | binary _ left right => left.columnRefs ++ right.columnRefs
  | call _ _ arguments => allColumnRefs arguments

/-- The columns that some expressions read. -/
def allColumnRefs : List Expr → List ColumnRef
  | [] => []
  | e :: rest => e.columnRefs ++ allColumnRefs rest
end

/-- The text of a literal, with text between quotes. -/
def literalText : Value → String
  | .text s => "'" ++ s ++ "'"
  | v => v.display

mutual
/-- One text for all spellings of an expression. -/
def canonical : Expr → String
  | column ref => Text.lower ref.name
  | literal value => literalText value
  | star => "*"
  | negate operand => "-" ++ operand.canonical
  | binary op left right =>
    "(" ++ left.canonical ++ " " ++ op.symbol ++ " " ++ right.canonical ++ ")"
  | call f distinct arguments =>
    f.name ++ "(" ++ (if distinct then "DISTINCT " else "") ++
      ", ".intercalate (canonicals arguments) ++ ")"

/-- The canonical texts of some expressions. -/
def canonicals : List Expr → List String
  | [] => []
  | e :: rest => e.canonical :: canonicals rest
end

end Expr
end SqlEngine
