import SqlEngine.Number.Shortest

/-!
# Writing a number

Two ways to write a double. The display form is always positional. The form used in JSON writes
whole numbers that doubles carry exactly as integers, other numbers of moderate size positionally
and always with a fraction, and the rest with an exponent.
-/
namespace SqlEngine.Number

/-- The digits of a decimal. -/
def Decimal.text (d : Decimal) : String := String.ofList (Nat.toDigits 10 d.digits)

/-- The place of the decimal point, counted from the front of the digits. -/
def Decimal.point (d : Decimal) : Int := (d.text.length : Int) + d.exponent

/-- That many zeros. -/
def zeros (n : Nat) : String := String.ofList (List.replicate n '0')

/-- A decimal without an exponent; a whole number ends in `wholeEnd`. -/
def Decimal.positional (d : Decimal) (wholeEnd : String) : String :=
  let digits := d.text
  if 0 ≤ d.exponent then digits ++ zeros d.exponent.toNat ++ wholeEnd
  else if 0 < d.point then
    let cut := d.point.toNat
    String.ofList (digits.toList.take cut) ++ "." ++ String.ofList (digits.toList.drop cut)
  else "0." ++ zeros (-d.point).toNat ++ digits

/-- A decimal with one digit before the point and a signed exponent. -/
def Decimal.scientific (d : Decimal) : String :=
  let digits := d.text.toList
  let power := d.point - 1
  let fraction := if digits.length ≤ 1 then "" else "." ++ String.ofList (digits.drop 1)
  String.ofList (digits.take 1) ++ fraction ++ "e" ++ (if power < 0 then "-" else "+") ++
    toString power.natAbs

/-- The minus sign of a negative number. -/
def signText (negative : Bool) : String := if negative then "-" else ""

/-- The display form of a double: no exponent, no fraction when whole, and one zero. -/
def display (x : Float) : String :=
  if x.isNaN then "NaN"
  else if x.isInf then if x < 0 then "-Infinity" else "Infinity"
  else
    let b := Binary.ofFloat x
    if b.significand = 0 then "0"
    else signText b.negative ++ (b.shortest .upward).positional ""

/-- The largest whole number up to which doubles carry every integer. -/
def largestExact : Nat := 9007199254740992

/-- The JSON form of a double. -/
def json (x : Float) : String :=
  if !x.isFinite then "null"
  else
    let b := Binary.ofFloat x
    if b.isWhole && b.wholePart ≤ largestExact then toString b.truncate
    else
      let d := b.shortest .toEven
      let plain := -5 < d.point && d.point ≤ 16
      signText b.negative ++ (if plain then d.positional ".0" else d.scientific)

end SqlEngine.Number
