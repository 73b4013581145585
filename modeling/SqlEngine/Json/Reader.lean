import SqlEngine.Json

/-!
# Reading JSON documents

The grammar of JSON as it stands: no comments, no trailing commas, no leading zeros. Whether a
number is too large or an escape names no character is left to whoever uses the document.
-/
namespace SqlEngine.Json

/-- White space between the parts of a document. -/
def isSpace (c : Char) : Bool := c == ' ' || c == '\n' || c == '\t' || c == '\r'

def skipSpace (cs : List Char) : List Char := cs.dropWhile isSpace

/-- The value of a hexadecimal digit. -/
def hexDigit? (c : Char) : Option Nat :=
  if c.isDigit then some (c.toNat - '0'.toNat)
  else if 'a' ≤ c && c ≤ 'f' then some (c.toNat - 'a'.toNat + 10)
  else if 'A' ≤ c && c ≤ 'F' then some (c.toNat - 'A'.toNat + 10)
  else none

/-- The number written by four hexadecimal digits. -/
def hexNumber? (cs : List Char) : Option Nat := do
  let digits ← cs.mapM hexDigit?
  return digits.foldl (fun n d => 16 * n + d) 0

/-- The character behind a backslash that stands for one character. -/
def simpleEscape? : Char → Option Char
  | '"' => some '"'
  | '\\' => some '\\'
  | '/' => some '/'
  | 'b' => some (Char.ofNat 8)
  | 'f' => some (Char.ofNat 12)
  | 'n' => some '\n'
  | 'r' => some '\r'
  | 't' => some '\t'
  | _ => none

/-- A unit of a text: a character, or a number written in hexadecimal digits. -/
inductive TextUnit where
  | char (c : Char)
  | code (n : Nat)

/-- The units of a text, read after its opening quote, and the characters after the closing one. -/
def readUnits? : List Char → Option (List TextUnit × List Char)
  | [] => none
  | '"' :: rest => some ([], rest)
  | '\\' :: 'u' :: a :: b :: c :: d :: rest => do
    let n ← hexNumber? [a, b, c, d]
    let (units, after) ← readUnits? rest
    return (.code n :: units, after)
  | '\\' :: e :: rest => do
    let c ← simpleEscape? e
    let (units, after) ← readUnits? rest
    return (.char c :: units, after)
  | c :: rest => do
    if c.toNat < 32 || c = '\\' then none
    else
      let (units, after) ← readUnits? rest
      return (.char c :: units, after)

/-- The characters of some units. Two codes of a surrogate pair are one character, and a code of a
pair on its own is none. -/
def unitChars? : List TextUnit → Option (List Char)
  | [] => some []
  | .char c :: rest => (unitChars? rest).map (c :: ·)
  | .code n :: rest =>
    if 0xD800 ≤ n && n ≤ 0xDBFF then
      match rest with
      | .code m :: rest =>
        if 0xDC00 ≤ m && m ≤ 0xDFFF then
          (unitChars? rest).map (Char.ofNat (0x10000 + (n - 0xD800) * 0x400 + (m - 0xDC00)) :: ·)
        else none
      | _ => none
    else if 0xDC00 ≤ n && n ≤ 0xDFFF then none
    else (unitChars? rest).map (Char.ofNat n :: ·)

/-- The content of a text. -/
def contentOf (units : List TextUnit) : Option String := (unitChars? units).map String.ofList

/-- Digits at the front, at least one, and the rest. -/
def readDigits? (cs : List Char) : Option (List Char × List Char) :=
  let digits := cs.takeWhile Char.isDigit
  if digits.isEmpty then none else some (digits, cs.dropWhile Char.isDigit)

/-- The whole part of a number, which has no leading zero, and the rest. -/
def readWhole? : List Char → Option (List Char × List Char)
  | '0' :: rest => some (['0'], rest)
  | cs => readDigits? cs

/-- The fraction of a number, if there is one, and the rest. -/
def readFraction : List Char → List Char × List Char
  | '.' :: rest =>
    match readDigits? rest with
    | some (digits, after) => ('.' :: digits, after)
    | none => ([], '.' :: rest)
  | cs => ([], cs)

/-- The exponent of a number, if there is one, and the rest. -/
def readExponent : List Char → List Char × List Char
  | [] => ([], [])
  | e :: rest =>
    let (sign, digits) := match rest with
      | '+' :: after => (['+'], after)
      | '-' :: after => (['-'], after)
      | _ => ([], rest)
    match readDigits? digits with
    | some (power, after) =>
      if e = 'e' || e = 'E' then (e :: sign ++ power, after) else ([], e :: rest)
    | none => ([], e :: rest)

/-- A number as it is written, and the rest. -/
def readNumber? (cs : List Char) : Option (String × List Char) := do
  let (sign, unsigned) := match cs with
    | '-' :: rest => (['-'], rest)
    | _ => ([], cs)
  let (whole, rest) ← readWhole? unsigned
  let (fraction, rest) := readFraction rest
  let (exponent, rest) := readExponent rest
  return (String.ofList (sign ++ whole ++ fraction ++ exponent), rest)

mutual

/-- The document at the front of the characters, and the rest. `depth` bounds the nesting. -/
def readValue? (depth : Nat) (cs : List Char) : Option (Json × List Char) :=
  match depth with
  | 0 => none
  | depth + 1 =>
    match skipSpace cs with
    | '"' :: rest => (readUnits? rest).map fun (units, after) => (.text (contentOf units), after)
    | '[' :: rest =>
      match skipSpace rest with
      | ']' :: after => some (.array [], after)
      | _ => (readItems? depth rest).map fun (items, after) => (.array items, after)
    | '{' :: rest =>
      match skipSpace rest with
      | '}' :: after => some (.object [], after)
      | _ => (readMembers? depth rest).map fun (members, after) => (.object members, after)
    | 'n' :: 'u' :: 'l' :: 'l' :: after => some (.null, after)
    | 't' :: 'r' :: 'u' :: 'e' :: after => some (.bool true, after)
    | 'f' :: 'a' :: 'l' :: 's' :: 'e' :: after => some (.bool false, after)
    | rest => (readNumber? rest).map fun (written, after) => (.number written, after)

/-- The items of an array up to and with its closing bracket, and the rest. -/
def readItems? (depth : Nat) (cs : List Char) : Option (List Json × List Char) :=
  match depth with
  | 0 => none
  | depth + 1 => do
    let (item, rest) ← readValue? depth cs
    match skipSpace rest with
    | ',' :: more =>
      let (items, after) ← readItems? depth more
      return (item :: items, after)
    | ']' :: after => return ([item], after)
    | _ => none

/-- The members of an object up to and with its closing bracket, and the rest. -/
def readMembers? (depth : Nat) (cs : List Char) :
    Option (List (Option String × Json) × List Char) :=
  match depth with
  | 0 => none
  | depth + 1 =>
    match skipSpace cs with
    | '"' :: rest => do
      let (units, rest) ← readUnits? rest
      match skipSpace rest with
      | ':' :: rest =>
        let (value, rest) ← readValue? depth rest
        let member := (contentOf units, value)
        match skipSpace rest with
        | ',' :: more =>
          let (members, after) ← readMembers? depth more
          return (member :: members, after)
        | '}' :: after => return ([member], after)
        | _ => none
      | _ => none
    | _ => none

end

/-- The document that a text is. Every step of the reading takes a character or goes one level
deeper after one, so twice the length of the text bounds the steps. -/
def parse? (text : String) : Option Json := do
  let cs := text.toList
  let (document, rest) ← readValue? (2 * cs.length + 1) cs
  if (skipSpace rest).isEmpty then return document else none

end SqlEngine.Json
