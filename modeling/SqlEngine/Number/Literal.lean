import SqlEngine.Text.Blank

/-!
# Reading a number

A number is an optional sign, digits with at most one point among or around them, and an optional
exponent. It is read as the nearest double, infinity included. The words for infinity and
not-a-number are not numbers here.
-/
namespace SqlEngine.Number

/-- The whole number written by decimal digits. -/
def ofDigits (cs : List Char) : Nat :=
  cs.foldl (fun n c => 10 * n + (c.toNat - '0'.toNat)) 0

/-- The double next to `digits * 10 ^ exponent`. Decimals far outside the range of doubles are
recognised by their size alone. -/
def nearest (digits : Nat) (exponent : Int) : Float :=
  let magnitude : Int := exponent + (Nat.toDigits 10 digits).length
  if digits = 0 || magnitude < -400 then 0
  else if 400 < magnitude then Float.ofBits 0x7FF0000000000000
  else Float.ofScientific digits (exponent < 0) exponent.natAbs

/-- A sign in front, and the rest. -/
def splitSign : List Char → Bool × List Char
  | '-' :: rest => (true, rest)
  | '+' :: rest => (false, rest)
  | cs => (false, cs)

/-- The exponent written at the end of a number, zero if there is none. -/
def readExponent? : List Char → Option Int
  | [] => some 0
  | mark :: rest =>
    let (negative, digits) := splitSign rest
    if (mark == 'e' || mark == 'E') && !digits.isEmpty && digits.all Char.isDigit then
      some (if negative then -(ofDigits digits : Int) else ofDigits digits)
    else none

/-- The digits after the point, if one comes next, and the rest. -/
def splitFraction : List Char → List Char × List Char
  | '.' :: rest => (rest.takeWhile Char.isDigit, rest.dropWhile Char.isDigit)
  | cs => ([], cs)

/-- The double written by a whole list of characters. -/
def ofChars? (cs : List Char) : Option Float :=
  let (negative, unsigned) := splitSign cs
  let whole := unsigned.takeWhile Char.isDigit
  let (fraction, rest) := splitFraction (unsigned.dropWhile Char.isDigit)
  if whole.isEmpty && fraction.isEmpty then none
  else (readExponent? rest).map fun exponent =>
    let size := nearest (ofDigits (whole ++ fraction)) (exponent - fraction.length)
    if negative then -size else size

/-- The double written by a text, which may have white space around it. -/
def parse? (s : String) : Option Float := ofChars? (Text.trimChars s.toList)

end SqlEngine.Number
