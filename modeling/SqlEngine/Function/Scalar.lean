import SqlEngine.Aggregate
import SqlEngine.Text.Blank

/-!
# Scalar functions

What the functions of single values compute. A missing first argument makes the result missing,
except that COALESCE takes the first argument that is not missing.
-/
namespace SqlEngine

/-- `acc * base ^ n` in doubles, by repeated squaring. -/
def Number.powerFrom (acc base : Float) (n : Nat) : Float :=
  let acc := if n % 2 = 1 then acc * base else acc
  if n < 2 then acc else powerFrom acc (base * base) (n / 2)
termination_by n

/-- A power of ten in doubles; negative powers are reciprocals of positive ones. -/
def Number.tenTo (n : Int) : Float :=
  let size := powerFrom 1 10 n.natAbs
  if n < 0 then 1 / size else size

/-- A double rounded to so many decimals, halves away from zero. Where that leaves the range of
doubles the number stays as it is. -/
def Number.roundTo (x : Float) (places : Int) : Float :=
  let factor := tenTo places
  let rounded := (x * factor).round / factor
  if rounded.isFinite then rounded else x

namespace Function

/-- The number of places that ROUND is asked for; zero if there is no such number. -/
def placesOf (arguments : List Value) : Int :=
  match arguments.head?.bind Value.number? with
  | some x => Number.truncateBetween (-2147483648) 2147483647 x
  | none => 0

/-- The part of a text from a position, counted from one, with at most the given length. Positions
before the first count as the first. Without a position the value stays as it is. -/
def substring (value : Value) : List Value → Value
  | [] => value
  | start :: others =>
    match start.number? with
    | none => .null
    | some first =>
      let tail := value.display.toList.drop (Number.countOf (Number.greatest first 1 - 1))
      match others with
      | [] => .text (String.ofList tail)
      | limit :: _ =>
        match limit.number? with
        | none => .null
        | some most => .text (String.ofList (tail.take (Number.countOf most)))

/-- What a function makes of a first argument that is not missing, and of the other ones. -/
def applyTo (f : Function) (first : Value) (others : List Value) : Value :=
  match f with
  | .upper => .text (Text.upper first.display)
  | .lower => .text (Text.lower first.display)
  | .length => .ofNat first.display.length
  | .trim => .text (Text.trim first.display)
  | .abs => (first.number?.map fun x => Value.number x.abs).getD .null
  | .round =>
    (first.number?.map fun x => Value.number (Number.roundTo x (placesOf others))).getD .null
  | .substr => substring first others
  | _ => .null

/-- What a scalar function makes of its arguments. -/
def apply (f : Function) : List Value → Value
  | [] => .null
  | first :: others =>
    if f = .coalesce then ((first :: others).find? (!·.isNull)).getD .null
    else if first.isNull then .null
    else f.applyTo first others

end Function
end SqlEngine
