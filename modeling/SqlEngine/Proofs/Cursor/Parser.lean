import SqlEngine.Grammar.Statement

/-!
# Parsers by position

The same grammar once more, for tokens in an array that ends with a token for the end of the text.
A parser keeps its position in the array, looks at tokens by their index, and takes slices of the
text by byte offsets. Each of these can go wrong: an index may lie outside the array, a slice may be
cut through a character, a counter may be lowered below zero. Such a crash is an outcome of its own,
apart from refusing the statement, and no parser can catch it.

A parser is a program. What repeats itself or calls itself is a routine that a program can call, so
that nothing rules out a program that runs for ever.
-/
namespace SqlEngine.Cursor

open Grammar (Body)

/-- A token by its place in the text. The token at the end of the text has no kind. -/
structure Placed where
  kind : Option TokenKind
  start : Position
  stop : Nat

def Placed.ofToken (token : Token) : Placed := ⟨some token.kind, token.start, token.stop⟩

/-- The token at the end of a text. -/
def Placed.atEnd (finish : Position) : Placed := ⟨none, finish, finish.offset⟩

/-- A text with its tokens, the last of which is at its end. -/
structure Source where
  text : String
  tokens : List Placed

def Source.ofTokens (sql : String) (list : TokenList) : Source :=
  ⟨sql, list.tokens.map .ofToken ++ [.atEnd list.finish]⟩

/-- What must never happen. -/
inductive Crash where
  /-- A token is read outside the array, or a range of tokens does not lie in it. -/
  | badIndex
  /-- A slice of the text ends before it begins, lies outside the text or cuts a character. -/
  | badSlice
  /-- A counter is lowered below zero. -/
  | belowZero

mutual

/-- Programs that read the source and change the position. -/
inductive Parser : Type → Type 1 where
  | done {α : Type} (a : α) : Parser α
  | andThen {α β : Type} (m : Parser α) (f : α → Parser β) : Parser β
  | source : Parser Source
  | position : Parser Nat
  | moveTo (position : Nat) : Parser Unit
  | refuse {α : Type} (cause : SqlError) : Parser α
  | crash {α : Type} (c : Crash) : Parser α
  /-- The failure of a parser is given back as a value; the position stays where it failed. -/
  | attempt {α : Type} (m : Parser α) : Parser (Except SqlError α)
  | call {α : Type} (routine : Routine α) : Parser α

/-- The loops of the parser, and the routines that call each other. -/
inductive Routine : Type → Type 1 where
  | furtherItems {α : Type} (separator : TokenKind) (item : Parser α) : Routine (List α)
  | expr (floor : Nat) : Routine Expr
  | operators (floor : Nat) (left : Expr) : Routine Expr
  | exprList : Routine (List Expr)
  | predicate : Routine Condition
  | negation : Routine Condition
  | skipUnrecognized (stop depth : Nat) (pending : Bool) : Routine Nat
  | joins : Routine (List JoinClause)
  | skipDefinition (start depth : Nat) : Routine Unit
  | definitions (table : String) (body : Body) : Routine Body
  | skipStatement : Routine Unit

end

namespace Parser

instance : Monad Parser where
  pure := done
  bind := andThen

variable {α : Type}

/-- The number before, if there is one. -/
def lower : Nat → Parser Nat
  | 0 => crash .belowZero
  | n + 1 => return n

/-- The token with an index. -/
def tokenAt (index : Nat) : Parser Placed := do
  match (← source).tokens[index]? with
  | some token => return token
  | none => crash .badIndex

/-- The tokens from one index up to another. -/
def tokensBetween (start stop : Nat) : Parser (List Placed) := do
  let tokens := (← source).tokens
  if start ≤ stop ∧ stop ≤ tokens.length then return (tokens.take stop).drop start
  else crash .badIndex

/-- The text from one byte offset up to another. -/
def slice (start stop : Nat) : Parser String := do
  let text := (← source).text
  if start ≤ stop ∧ (⟨start⟩ : String.Pos.Raw).IsValid text ∧
      (⟨stop⟩ : String.Pos.Raw).IsValid text then
    return String.Pos.Raw.extract text ⟨start⟩ ⟨stop⟩
  else crash .badSlice

def current : Parser Placed := do tokenAt (← position)

/-- The token so many places ahead, or the one at the end. -/
def peek (distance : Nat) : Parser Placed := do
  let last ← lower (← source).tokens.length
  tokenAt (min ((← position) + distance) last)

/-- The byte offset at which the token before ends. -/
def previousStop : Parser Nat := do
  match ← position with
  | 0 => return 0
  | before + 1 => return (← tokenAt before).stop

/-- One token further, but not past the one at the end. -/
def advance : Parser Unit := do
  let last ← lower (← source).tokens.length
  let here ← position
  if here < last then moveTo (here + 1)

def tokenText (token : Placed) : Parser String := slice token.start.offset token.stop

/-- The text of the token ahead, or a phrase for the end of the text. -/
def currentText : Parser String := do
  let token ← current
  if token.kind.isNone then return "end of statement" else tokenText token

def failAt (token : Placed) (what : Complaint) : Parser α :=
  refuse (.wording (.complaint token.start what))

def fail (what : Complaint) : Parser α := do failAt (← current) what

/-- Goes past the token ahead if it has the given kind, and says whether it did. -/
def matchToken (kind : TokenKind) : Parser Bool := do
  if (← current).kind = some kind then
    advance
    return true
  else return false

/-- Goes past a token that must be there. -/
def expect (kind : TokenKind) (what : String → Complaint) : Parser Unit := do
  if ← matchToken kind then return () else fail (what (← currentText))

def keyword (word : Keyword) : Parser Unit := expect (.keyword word) (.expectedKeyword word)

def mark (m : Mark) : Parser Unit := expect (.mark m) (.expectedMark m)

/-- The token can stand as a name. Whether a string is in double quotes is looked up in the text. -/
def isName (token : Placed) : Parser Bool := do
  match token.kind with
  | some (.identifier _) => return true
  | some (.string _ _) =>
    let text := (← source).text
    let behind ← slice token.start.offset text.utf8ByteSize
    return behind.toList.head? = some '"'
  | some (.keyword word) => return word.isNonReserved
  | _ => return false

/-- The name that a token is. -/
def nameText (token : Placed) : Parser String :=
  match token.kind with
  | some (.identifier name) => return name
  | some (.string _ content) => return content
  | _ => tokenText token

/-- A name as it is written. -/
def identifier : Parser String := do
  if ← isName (← current) then
    let name ← nameText (← current)
    advance
    return name
  else fail .expectedIdentifier

def name : Parser String := return Text.lower (← identifier)

/-- More items, each behind a separator. -/
def furtherItems (separator : TokenKind) (item : Parser α) : Parser (List α) :=
  call (.furtherItems separator item)

/-- One or more items with a separator between them. -/
def separated (separator : TokenKind) (item : Parser α) : Parser (List α) := do
  let first ← item
  return first :: (← furtherItems separator item)

/-- What follows a keyword, if the keyword is there. -/
def optionalClause (word : Keyword) (body : Parser α) : Parser (Option α) := do
  if ← matchToken (.keyword word) then return some (← body) else return none

end Parser
end SqlEngine.Cursor
