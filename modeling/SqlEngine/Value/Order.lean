import SqlEngine.Value

/-!
# Equality and order of values

Four relations, each for one use: loose equality for `=`, `IN` and joins; comparison for `<` and
its kin; the sorting order; and the key under which equal values fall into one group. They differ
in how they treat missing values and the border between numbers and text.
-/
namespace SqlEngine

/-- The order of two doubles; not-a-number has none. -/
def Number.compare? (x y : Float) : Option Ordering :=
  if x < y then some .lt
  else if y < x then some .gt
  else if x == y then some .eq
  else none

namespace Value

/-- Equality of content: nothing with nothing, doubles as doubles, texts character by character. A
number and a text are never equal here, and not-a-number does not equal itself. -/
def equals : Value → Value → Bool
  | .null, .null => true
  | .number x, .number y => x == y
  | .text s, .text t => s == t
  | _, _ => false

/-- Loose equality. A missing value is neither equal nor unequal to anything; a number equals a
text that is the same number. -/
def looselyEqual? : Value → Value → Option Bool
  | .null, _ => none
  | _, .null => none
  | .number x, .number y => some (x == y)
  | .text s, .text t => some (s == t)
  | .number x, .text s | .text s, .number x => some ((Number.parse? s).any (· == x))

/-- The order of two values: by characters between texts, numerically otherwise. There is none
when a value is missing or a text that is no number meets a number. -/
def compare? : Value → Value → Option Ordering
  | .null, _ => none
  | _, .null => none
  | .text s, .text t => some (compare s t)
  | v, w => do
    let x ← v.number?
    let y ← w.number?
    Number.compare? x y

/-- The order of two texts when case is looked at only between texts that agree otherwise. -/
def compareTexts (s t : String) : Ordering :=
  (compare (Text.lower s) (Text.lower t)).then (compare s t)

/-- The sorting order: missing values first, numbers numerically, all else by its text. -/
def sortCompare : Value → Value → Ordering
  | .null, .null => .eq
  | .null, _ => .lt
  | _, .null => .gt
  | .number x, .number y => (Number.compare? x y).getD .eq
  | v, w => compareTexts v.display w.display

end Value

/-- What equal values have in common when rows are grouped. -/
inductive GroupKey where
  | null
  | number (bits : UInt64)
  | text (s : String)
deriving DecidableEq

/-- The two zeros share a key, as do all missing values; a number and a text never do. -/
def Value.groupKey : Value → GroupKey
  | .null => .null
  | .number x => .number (if x == 0 then (0 : Float) else x).toBits
  | .text s => .text s

end SqlEngine
