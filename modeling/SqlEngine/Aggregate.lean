import SqlEngine.Function
import SqlEngine.Value

/-!
# Aggregates

What the functions over the rows of a group make of the values that their argument has in those
rows. COUNT leaves missing values out; SUM and AVG take whatever is no number for zero; MIN and MAX
look at numbers and numeric text only, numerically.
-/
namespace SqlEngine

/-- The smaller of two doubles; a number is preferred to not-a-number. -/
def Number.least (x y : Float) : Float :=
  if x.isNaN then y else if y.isNaN then x else if y < x then y else x

/-- The larger of two doubles; a number is preferred to not-a-number. -/
def Number.greatest (x y : Float) : Float :=
  if x.isNaN then y else if y.isNaN then x else if x < y then y else x

namespace Aggregate

/-- The sum of the values, from the first to the last. -/
def sum (values : List Value) : Float := values.foldl (fun total v => total + v.summand) 0

/-- The number that is left when the numbers among the values are put together two by two. -/
def extreme (pick : Float → Float → Float) (values : List Value) : Value :=
  match values.filterMap Value.number? with
  | [] => .null
  | first :: rest => .number (rest.foldl pick first)

/-- What a function makes of the values of a group; nothing, unless it is an aggregate. -/
def compute (f : Function) (values : List Value) : Value :=
  match f with
  | .count => .ofNat (values.filter (!·.isNull)).length
  | .sum => .number (sum values)
  | .avg => if values.isEmpty then .null else .number (sum values / Float.ofNat values.length)
  | .min => extreme Number.least values
  | .max => extreme Number.greatest values
  | _ => .null

end Aggregate
end SqlEngine
