import SqlEngine.Function
import SqlEngine.Token.Lexer

/-!
# What can go wrong

Every failure of a statement, by its cause. The wording of a failure is decided here and nowhere
else. Complaints about the wording of a statement name the place of the token they are about,
which is the end of the text when there is no such token.
-/
namespace SqlEngine

/-- What is wrong at a token. -/
inductive Complaint where
  | expectedKeyword (word : Keyword) (found : String)
  | expectedMark (mark : Mark) (found : String)
  | unexpected (found : String)
  | expectedIdentifier
  | expectedOn
  | expectedCondition
  | expectedComparison
  | expectedNegatable
  | expectedClosing
  | expectedDefinition
  | expectedColumnName
  | noColumns
  | expectedAddColumn
  | expectedNumber
  | expectedCount
  | unknownFunction (name : String)
  | starNotSupported (f : Function)
deriving DecidableEq

/-- A complaint in words. -/
def Complaint.message : Complaint → String
  | expectedKeyword word found => "Expected " ++ word.text ++ ", found '" ++ found ++ "'"
  | expectedMark mark found => "Expected '" ++ mark.text ++ "', found '" ++ found ++ "'"
  | unexpected found => "Unexpected '" ++ found ++ "'"
  | expectedIdentifier => "Expected identifier"
  | expectedOn => "Expected ON"
  | expectedCondition => "Expected condition"
  | expectedComparison => "Expected comparison operator"
  | expectedNegatable => "Expected BETWEEN, IN or LIKE after NOT"
  | expectedClosing => "Expected ')'"
  | expectedDefinition => "Expected column definition"
  | expectedColumnName => "Expected column name"
  | noColumns => "Table must have at least one column"
  | expectedAddColumn => "Expected ADD COLUMN"
  | expectedNumber => "Expected number"
  | expectedCount => "Expected non-negative integer"
  | unknownFunction name => "Unknown function: " ++ Text.upper name
  | starNotSupported f => f.name ++ "(*) is not supported"

/-- Why the wording of a statement is refused. -/
inductive SyntaxError where
  | unknownStatement (preview : String)
  | lexical (fault : LexFault)
  | complaint (place : Position) (what : Complaint)
  | argumentCount (f : Function) (given : Nat)
  | aggregateNotAllowed (f : Function)
  | starOutsideCount
deriving DecidableEq

/-- Why a statement does not fit the tables. -/
inductive SchemaError where
  | tableNotFound (table : String)
  | tableExists (table : String)
  | unknownColumn (column : String)
  | columnExists (column table : String)
  | duplicateColumn (column table : String)
deriving DecidableEq

/-- Why a statement fails. -/
inductive SqlError where
  | wording (cause : SyntaxError)
  | schema (cause : SchemaError)
  | arity (expected found : Nat)
  | onlyAddColumn
deriving DecidableEq

/-- A place in words. -/
def Position.phrase (place : Position) : String :=
  " at line " ++ toString place.line ++ " column " ++ toString place.column

def LexFault.message : LexFault → String
  | unexpectedCharacter c place => "Unexpected character '" ++ c.toString ++ "'" ++ place.phrase
  | unterminatedString place => "Unterminated string" ++ place.phrase
  | unterminatedName place => "Unterminated quoted identifier" ++ place.phrase
  | invalidNumber written => "Invalid number: " ++ written

def SyntaxError.message : SyntaxError → String
  | unknownStatement preview => "unknown statement: " ++ preview ++ "..."
  | lexical fault => fault.message
  | complaint place what => what.message ++ place.phrase
  | argumentCount f given =>
    f.name ++ "() takes " ++ f.argumentsText ++ " argument(s), got " ++ toString given
  | aggregateNotAllowed f => "aggregate function " ++ f.name ++ "() is not allowed here"
  | starOutsideCount => "'*' is only valid inside COUNT(*)"

def SchemaError.message : SchemaError → String
  | tableNotFound table => "Table '" ++ table ++ "' not found"
  | tableExists table => "Table '" ++ table ++ "' already exists"
  | unknownColumn column => "Unknown column: " ++ column
  | columnExists column table => "Column '" ++ column ++ "' already exists in '" ++ table ++ "'"
  | duplicateColumn column table =>
    "Duplicate column '" ++ column ++ "' in table '" ++ table ++ "'"

namespace SqlError

/-- The category of a failure. -/
def kind : SqlError → String
  | wording _ => "SyntaxError"
  | schema _ => "SchemaError"
  | arity _ _ => "ArityError"
  | onlyAddColumn => "UnsupportedOperationError"

/-- What a failure says after its category. -/
def detail : SqlError → String
  | wording cause => cause.message
  | schema cause => cause.message
  | arity expected found =>
    "Column count (" ++ toString expected ++ ") doesn't match value count (" ++
      toString found ++ ")"
  | onlyAddColumn => "Only ADD COLUMN is supported"

/-- The full text of a failure. -/
def message (e : SqlError) : String := e.kind ++ ": " ++ e.detail

/-- A name that belongs to no table. -/
def tableNotFound (table : String) : SqlError := .schema (.tableNotFound table)

/-- A name that belongs to no column. -/
def unknownColumn (column : String) : SqlError := .schema (.unknownColumn column)

end SqlError
end SqlEngine
