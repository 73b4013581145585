import SqlEngine.Text.LetterTable

/-!
# Letters, numerals and word characters

Letters have the Unicode property Alphabetic; numerals have general category Nd, Nl or No. The
ASCII part of each class is spelled out, so that the common case needs no table.
-/
namespace SqlEngine.Text

/-- A code point lies in one of the given inclusive ranges. -/
def inRanges (ranges : List (Nat × Nat)) (code : Nat) : Bool :=
  ranges.any fun range => range.1 ≤ code && code ≤ range.2

/-- A character is a letter when it has the property Alphabetic. -/
def isLetter (c : Char) : Bool :=
  if c.toNat < 128 then c.isAlpha else inRanges letterRanges c.toNat

/-- A character is a numeral when its general category is Nd, Nl or No. -/
def isNumeral (c : Char) : Bool :=
  if c.toNat < 128 then c.isDigit else inRanges numeralRanges c.toNat

/-- A word starts with a letter or an underscore. -/
def startsWord (c : Char) : Bool := isLetter c || c == '_'

/-- A word goes on with letters, numerals and underscores. -/
def continuesWord (c : Char) : Bool := isLetter c || isNumeral c || c == '_'

end SqlEngine.Text
