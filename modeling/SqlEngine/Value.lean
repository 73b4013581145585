import SqlEngine.Number.Layout
import SqlEngine.Number.Literal
import SqlEngine.Text.Case

/-!
# Cell values

A cell is empty, a number, or text. Text that is a number in its entirety counts as that number
wherever a number is asked for, and only there. Ordering and equality are in `Value.Order`.
-/
namespace SqlEngine

/-- What a cell holds. `null` is the missing value. -/
inductive Value where
  | null
  | number (x : Float)
  | text (s : String)
deriving DecidableEq, Inhabited

namespace Value

/-- The value of a bare literal: the word NULL in any case, else a number, else the text without
the white space around it. -/
def ofLiteral (raw : String) : Value :=
  let word := Text.trim raw
  if Text.sameName word "null" then .null
  else match Number.parse? word with
    | some x => .number x
    | none => .text word

def isNull : Value → Bool
  | .null => true
  | _ => false

/-- The number of a cell, if its content is one. -/
def number? : Value → Option Float
  | .number x => some x
  | .text s => Number.parse? s
  | .null => none

/-- The number of a cell in a sum, where whatever is not a number counts as zero. -/
def summand (v : Value) : Float :=
  match v.number? with
  | some x => if x.isNaN then 0 else x
  | none => 0

/-- The text that a cell is shown as. -/
def display : Value → String
  | .null => "NULL"
  | .number x => Number.display x
  | .text s => s

/-- The number of something counted. -/
def ofNat (n : Nat) : Value := .number (Float.ofNat n)

end Value
end SqlEngine
