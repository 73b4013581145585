/-!
# White space

The characters of the Unicode property White_Space, and texts without white space at their ends.
Control characters other than tab to carriage return and U+0085 are not white space, and neither
are the zero-width characters.
-/
namespace SqlEngine.Text

/-- A character is blank when it has the property White_Space. -/
def isBlank (c : Char) : Bool :=
  let code := c.toNat
  (9 ≤ code && code ≤ 13) || code == 0x20 || code == 0x85 || code == 0xA0 || code == 0x1680 ||
    (0x2000 ≤ code && code ≤ 0x200A) || code == 0x2028 || code == 0x2029 || code == 0x202F ||
    code == 0x205F || code == 0x3000

/-- The characters from the first one that is not blank. -/
def trimLeft (cs : List Char) : List Char := cs.dropWhile isBlank

/-- The characters up to the last one that is not blank. -/
def trimRight (cs : List Char) : List Char := (trimLeft cs.reverse).reverse

/-- The characters between the first and the last one that is not blank. -/
def trimChars (cs : List Char) : List Char := trimRight (trimLeft cs)

/-- A text without the white space at its two ends. -/
def trim (s : String) : String := String.ofList (trimChars s.toList)

/-- The words of a text: its longest runs of characters that are not blank. -/
def wordsFrom (word : List Char) : List Char → List (List Char)
  | [] => if word.isEmpty then [] else [word.reverse]
  | c :: rest =>
    if isBlank c then
      if word.isEmpty then wordsFrom [] rest else word.reverse :: wordsFrom [] rest
    else wordsFrom (c :: word) rest

/-- A text with every run of white space inside it narrowed to one space, and none at its ends. -/
def collapse (s : String) : String :=
  " ".intercalate ((wordsFrom [] s.toList).map String.ofList)

end SqlEngine.Text
