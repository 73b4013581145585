/-!
# The exact value of a double

A finite double is a signed whole number times a power of two. Everything that prints or rounds
doubles works on this form, in exact arithmetic. Not-a-number and the infinities have no such form
and are handled by the callers.
-/
namespace SqlEngine.Number

/-- The value `significand * 2 ^ exponent`, with the sign kept apart. -/
structure Binary where
  negative : Bool
  significand : Nat
  exponent : Int
deriving Repr, DecidableEq

/-- The exponent of the smallest positive double. -/
def leastExponent : Int := -1074

/-- The significand of a normal double has this bit as its highest one. -/
def leadingBit : Nat := Nat.pow 2 52

/-- The exact value of the double with the given bits; meant for finite doubles only. -/
def Binary.ofBits (bits : UInt64) : Binary :=
  let pattern := bits.toNat
  let fraction := pattern % leadingBit
  let field := pattern / leadingBit % Nat.pow 2 11
  let negative := pattern / Nat.pow 2 63 == 1
  if field = 0 then ⟨negative, fraction, leastExponent⟩
  else ⟨negative, leadingBit + fraction, leastExponent + (field - 1 : Nat)⟩

/-- The exact value of a finite double. -/
def Binary.ofFloat (x : Float) : Binary := Binary.ofBits x.toBits

/-- The magnitude is a whole number. -/
def Binary.isWhole (b : Binary) : Bool :=
  0 ≤ b.exponent || b.significand % Nat.pow 2 (-b.exponent).toNat == 0

/-- The whole part of the magnitude. -/
def Binary.wholePart (b : Binary) : Nat :=
  if 0 ≤ b.exponent then b.significand * Nat.pow 2 b.exponent.toNat
  else b.significand / Nat.pow 2 (-b.exponent).toNat

/-- The integer next to the value in the direction of zero. -/
def Binary.truncate (b : Binary) : Int :=
  if b.negative then -(b.wholePart : Int) else b.wholePart

/-- A double without a fraction: finite and whole. -/
def isWhole (x : Float) : Bool := x.isFinite && (Binary.ofFloat x).isWhole

/-- The integer next to a double in the direction of zero, kept between `low` and `high`.
Not-a-number counts as zero. -/
def truncateBetween (low high : Int) (x : Float) : Int :=
  if x.isNaN then 0
  else if x.isFinite then min high (max low (Binary.ofFloat x).truncate)
  else if x < 0 then low else high

/-- Counts of rows and characters go up to this number. -/
def largestCount : Nat := 18446744073709551615

/-- The count that a number asks for: fractions are cut off, negative numbers and not-a-number ask
for none, and numbers that are too large ask for the largest count. -/
def countOf (x : Float) : Nat := (truncateBetween 0 largestCount x).toNat

end SqlEngine.Number
