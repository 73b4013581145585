import SqlEngine.Text.Case

/-!
# Functions

The functions that expressions can call, their names, and how many arguments they take. What they
compute is in `Expr.Eval` and `Aggregate`.
-/
namespace SqlEngine

/-- The functions that expressions can call. -/
inductive Function where
  | upper | lower | length | round | abs | trim | substr | coalesce
  | count | sum | avg | min | max
deriving DecidableEq, Repr

namespace Function

/-- The name under which a function is shown. -/
def name : Function → String
  | upper => "UPPER" | lower => "LOWER" | length => "LENGTH" | round => "ROUND"
  | abs => "ABS" | trim => "TRIM" | substr => "SUBSTR" | coalesce => "COALESCE"
  | count => "COUNT" | sum => "SUM" | avg => "AVG" | min => "MIN" | max => "MAX"

/-- Every function. -/
def all : List Function :=
  [upper, lower, length, round, abs, trim, substr, coalesce, count, sum, avg, min, max]

/-- The function that a name calls; two of them have a second name. The case of ASCII letters does
not matter. -/
def ofName? (word : String) : Option Function :=
  let capital := Text.upperAscii word
  if capital = "LEN" then some length
  else if capital = "SUBSTRING" then some substr
  else all.find? fun f => f.name == capital

/-- The functions over the rows of a group. -/
def isAggregate : Function → Bool
  | count | sum | avg | min | max => true
  | _ => false

/-- The least number of arguments. -/
def minArguments (_ : Function) : Nat := 1

/-- The greatest number of arguments, if there is one. -/
def maxArguments? : Function → Option Nat
  | round => some 2
  | substr => some 3
  | coalesce => none
  | _ => some 1

/-- A function takes that many arguments. -/
def takes (f : Function) (count : Nat) : Bool :=
  f.minArguments ≤ count && f.maxArguments?.all (count ≤ ·)

/-- The accepted numbers of arguments in words. -/
def argumentsText (f : Function) : String :=
  match f.maxArguments? with
  | none => "at least " ++ toString f.minArguments
  | some most =>
    if f.minArguments = most then toString most
    else toString f.minArguments ++ " to " ++ toString most

end Function

end SqlEngine
