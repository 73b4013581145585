import SqlEngine.Number.Binary

/-!
# The fewest decimal digits that read back

A double is read from every decimal that lies nearer to it than to its neighbours. The shortest
decimals of a positive double are found grid by grid: for one digit, two digits and so on, the two
neighbours of the value on the grid of decimals with that many digits are tried, and the first
grid with a neighbour that reads back gives the answer. If both do, the nearer one is taken. All
arithmetic is exact.
-/
namespace SqlEngine.Number

/-- The decimal `digits * 10 ^ exponent`. -/
structure Decimal where
  digits : Nat
  exponent : Int
deriving Repr, DecidableEq

/-- Which of two equally near decimals is taken. -/
inductive Tie where
  | upward
  | toEven
deriving Repr, DecidableEq

/-- The number of decimal digits of a whole number; zero has one. -/
def digitCount (n : Nat) : Nat := (Nat.toDigits 10 n).length

/-- The decimals that read back as one double, as numerators over a common denominator: the value
itself and the two ends of the interval, which belong to it when `closed`. -/
structure ReadsBack where
  low : Nat
  value : Nat
  high : Nat
  denominator : Nat
  closed : Bool
deriving Repr, DecidableEq

/-- The interval of a positive double. The gap below a power of two is half as wide as the gap
above it, except at the bottom of the range. The ends belong to the interval when the significand
is even, because a tie between neighbours is read as the even one. -/
def Binary.readsBack (b : Binary) : ReadsBack :=
  let narrow := b.significand == leadingBit && b.exponent != leastExponent
  let scale := Nat.pow 2 b.exponent.toNat
  { low := (4 * b.significand - if narrow then 1 else 2) * scale
    value := 4 * b.significand * scale
    high := (4 * b.significand + 2) * scale
    denominator := 4 * Nat.pow 2 (-b.exponent).toNat
    closed := b.significand % 2 == 0 }

/-- The place `k` of the decimal point: the value is at least `10 ^ (k - 1)` and below `10 ^ k`. -/
def ReadsBack.magnitude (r : ReadsBack) : Int :=
  if r.denominator ≤ r.value then digitCount (r.value / r.denominator)
  else 1 - digitCount ((r.denominator + r.value - 1) / r.value - 1)

/-- The decimal that reads back among the two neighbours of the value on the grid with step
`10 ^ step`, the nearer one if both do. -/
def ReadsBack.onGrid? (tie : Tie) (r : ReadsBack) (step : Int) : Option Nat :=
  let up := Nat.pow 10 step.toNat
  let down := Nat.pow 10 (-step).toNat
  let unit := r.denominator * up
  let below := r.value * down / unit
  let remainder := r.value * down % unit
  let atLow := below * unit
  let atHigh := (below + 1) * unit
  let lowFits := 0 < below && (r.low * down < atLow || (r.closed && r.low * down == atLow))
  let highFits := atHigh < r.high * down || (r.closed && atHigh == r.high * down)
  match lowFits, highFits with
  | false, false => none
  | true, false => some below
  | false, true => some (below + 1)
  | true, true =>
    if 2 * remainder < unit then some below
    else if unit < 2 * remainder then some (below + 1)
    else match tie with
      | .upward => some (below + 1)
      | .toEven => some (if below % 2 == 0 then below else below + 1)

/-- A decimal without a zero as its last digit. -/
def Decimal.trimmed (d : Decimal) : Decimal :=
  if d.digits % 10 = 0 then ⟨d.digits / 10, d.exponent + 1⟩ else d

/-- The shortest decimal that reads back as a positive double. Seventeen digits always do. -/
def Binary.shortest (tie : Tie) (b : Binary) : Decimal :=
  let r := b.readsBack
  let place := r.magnitude
  let answers := (List.range 17).filterMap fun n =>
    let step := place - (n + 1 : Nat)
    (r.onGrid? tie step).map fun digits => Decimal.trimmed ⟨digits, step⟩
  answers.head?.getD ⟨b.significand, b.exponent⟩

end SqlEngine.Number
