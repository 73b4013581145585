import SqlEngine.Text.Blank

/-!
# Scripts

A script is cut into statements at the semicolons that stand in neither a string nor a comment,
and a statement is freed of its comments. Both follow from one pass that says what each character
is. Strings stand in single or double quotes, and a backslash in a string takes the next character
along; grave accents mean nothing here.
-/
namespace SqlEngine.Script

/-- Where in a script the pass is. -/
inductive Mode where
  | code
  | quoted (quote : Char)
  | lineComment
  | blockComment
deriving DecidableEq

/-- What a character is. The last character of a closed block comment is told from the rest of the
comment, because a space takes the place of the comment. -/
inductive Role where
  | code
  | quoted
  | terminator
  | comment
  | commentEnd
deriving DecidableEq

/-- The mode after a character of code that begins no comment. -/
def Mode.afterCode (c : Char) : Mode :=
  if c = '\'' || c = '"' then .quoted c else .code

/-- What a character of code that begins no comment is. -/
def Role.ofCode (c : Char) : Role :=
  if c = ';' then .terminator else if c = '\'' || c = '"' then .quoted else .code

/-- Each character with what it is. The newline after a line comment is code again. -/
def scan : Mode → List Char → List (Char × Role)
  | _, [] => []
  | .code, '-' :: '-' :: rest => ('-', .comment) :: ('-', .comment) :: scan .lineComment rest
  | .code, '/' :: '*' :: rest => ('/', .comment) :: ('*', .comment) :: scan .blockComment rest
  | .code, c :: rest => (c, .ofCode c) :: scan (.afterCode c) rest
  | .quoted quote, '\\' :: c :: rest => ('\\', .quoted) :: (c, .quoted) :: scan (.quoted quote) rest
  | .quoted quote, c :: rest =>
    (c, .quoted) :: scan (if c = quote then .code else .quoted quote) rest
  | .lineComment, c :: rest =>
    if c = '\n' then (c, .code) :: scan .code rest else (c, .comment) :: scan .lineComment rest
  | .blockComment, '*' :: '/' :: rest => ('*', .comment) :: ('/', .commentEnd) :: scan .code rest
  | .blockComment, c :: rest => (c, .comment) :: scan .blockComment rest

attribute [local simp] scan in
/-- The pass keeps every character in its place. -/
theorem map_fst_scan (mode : Mode) (cs : List Char) : (scan mode cs).map Prod.fst = cs := by
  induction mode, cs using scan.induct <;> simp_all

/-- The mode in which the pass is after some characters. -/
def modeAfter : Mode → List Char → Mode
  | mode, [] => mode
  | .code, '-' :: '-' :: rest => modeAfter .lineComment rest
  | .code, '/' :: '*' :: rest => modeAfter .blockComment rest
  | .code, c :: rest => modeAfter (.afterCode c) rest
  | .quoted quote, '\\' :: _ :: rest => modeAfter (.quoted quote) rest
  | .quoted quote, c :: rest => modeAfter (if c = quote then .code else .quoted quote) rest
  | .lineComment, c :: rest => modeAfter (if c = '\n' then .code else .lineComment) rest
  | .blockComment, '*' :: '/' :: rest => modeAfter .code rest
  | .blockComment, _ :: rest => modeAfter .blockComment rest

/-- The stretches of characters between the terminators. -/
def cut : List (Char × Role) → List (List Char)
  | [] => [[]]
  | (c, role) :: rest =>
    if role = .terminator then [] :: cut rest
    else match cut rest with
      | [] => [[c]]
      | piece :: pieces => (c :: piece) :: pieces

/-- The statements of a script as lists of characters: the trimmed stretches that are not empty. -/
def statementChars (cs : List Char) : List (List Char) :=
  ((cut (scan .code cs)).map Text.trimChars).filter (!·.isEmpty)

/-- The statements of a script, in order; the last one needs no semicolon. -/
def statements (script : String) : List String :=
  (statementChars script.toList).map String.ofList

/-- What is left of a character when comments are removed. -/
def uncommented : Char × Role → Option Char
  | (_, .comment) => none
  | (_, .commentEnd) => some ' '
  | (c, _) => some c

/-- Characters without comments, trimmed. -/
def stripChars (cs : List Char) : List Char :=
  Text.trimChars ((scan .code cs).filterMap uncommented)

/-- A statement without comments. A block comment leaves a space and a line comment its newline,
so that the tokens on both sides stay apart. -/
def stripComments (statement : String) : String := String.ofList (stripChars statement.toList)

/-- At most so many characters from the front of a text. -/
def preview (limit : Nat) (text : String) : String := String.ofList (text.toList.take limit)

end SqlEngine.Script
