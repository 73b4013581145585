import SqlEngine.Grammar.Definition
import SqlEngine.Grammar.Query
import SqlEngine.Script

/-!
# Reading statements

The kind of a statement is told from its leading words alone, before it is cut into tokens; the
tokens are then read as a statement of that kind. A semicolon may follow, and nothing else.
-/
namespace SqlEngine

/-- The first `limit` words of some characters, in ASCII capitals, up to the first character that
is neither part of a word nor white space. `word` holds the word being read, backwards. -/
def leadingWords (word : List Char) : Nat → List Char → List String
  | 0, _ => []
  | _, [] => if word.isEmpty then [] else [String.ofList word.reverse]
  | limit + 1, c :: rest =>
    if Text.isLetter c || Text.isNumeral c || c == '_' then
      leadingWords (c.toUpper :: word) (limit + 1) rest
    else if Text.isBlank c then
      if word.isEmpty then leadingWords [] (limit + 1) rest
      else String.ofList word.reverse :: leadingWords [] limit rest
    else if word.isEmpty then [] else [String.ofList word.reverse]

/-- The kind of statement that some leading words announce. -/
def StatementKind.ofWords? : List String → Option StatementKind
  | "CREATE" :: "TABLE" :: _ => some .createTable
  | "CREATE" :: "INDEX" :: _ => some .createIndex
  | "CREATE" :: "UNIQUE" :: "INDEX" :: _ => some .createIndex
  | "INSERT" :: "INTO" :: _ => some .insert
  | "SELECT" :: _ => some .select
  | "UPDATE" :: _ => some .update
  | "DELETE" :: "FROM" :: _ => some .delete
  | "DROP" :: "TABLE" :: _ => some .dropTable
  | "SHOW" :: "TABLES" :: _ => some .showTables
  | "DESCRIBE" :: _ => some .describe
  | "DESC" :: _ => some .describe
  | "ALTER" :: "TABLE" :: _ => some .alterTable
  | _ => none

/-- The kind of statement that a text is. -/
def StatementKind.ofText? (sql : String) : Option StatementKind :=
  ofWords? (leadingWords [] 3 sql.toList)

namespace Grammar

/-- Reads a list of values in brackets, which may be empty. -/
def readGroup : Reader (List Expr) := do
  Reader.mark .leftParen
  let group ← if startsWith (.mark .rightParen) (← Reader.ahead) then pure [] else readExprs
  Reader.mark .rightParen
  return group

def readInsert : Reader Insert := do
  Reader.keyword .INSERT
  Reader.keyword .INTO
  let table ← Reader.name
  let columns ←
    if ← Reader.optional (.mark .leftParen) then
      let names ← Reader.separated (.mark .comma) Reader.name
      Reader.mark .rightParen
      pure (some names)
    else pure none
  Reader.keyword .VALUES
  return { table, columns, groups := ← Reader.separated (.mark .comma) readGroup }

/-- Reads a column and the expression that is assigned to it. -/
def readAssignment : Reader (String × Expr) := do
  let column ← Reader.name
  Reader.mark .eq
  return (column, ← readExpr)

def readUpdate : Reader Update := do
  Reader.keyword .UPDATE
  let table ← Reader.name
  Reader.keyword .SET
  let assignments ← Reader.separated (.mark .comma) readAssignment
  return { table, assignments, filter := ← optionalClause .WHERE readCondition }

def readDelete : Reader Delete := do
  Reader.keyword .DELETE
  Reader.keyword .FROM
  let table ← Reader.name
  return { table, filter := ← optionalClause .WHERE readCondition }

/-- Reads the words IF NOT EXISTS, if the first of them is there. -/
def readIfNotExists : Reader Bool := do
  if ← Reader.optional (.keyword .IF) then
    Reader.keyword .NOT
    Reader.keyword .EXISTS
    return true
  else return false

def readCreateTable : Reader CreateTable := do
  Reader.keyword .CREATE
  Reader.keyword .TABLE
  let ifNotExists ← readIfNotExists
  let table ← Reader.name
  Reader.mark .leftParen
  let body ← readBody table ⟨[], []⟩
  Reader.mark .rightParen
  let columns ← settle (markKeys body.columns body.key)
  if columns.isEmpty then refuse .noColumns else return { table, ifNotExists, columns }

/-- The tokens of the statement are passed over up to its semicolon. -/
def skipStatement : Reader Unit := fun ts =>
  .ok ((), ⟨ts.dropWhile fun t => t.kind ≠ .mark .semicolon, List.dropWhile_suffix _⟩)

def readCreateIndex : Reader CreateIndex := do
  Reader.keyword .CREATE
  let _ ← Reader.optional (.keyword .UNIQUE)
  Reader.keyword .INDEX
  let _ ← readIfNotExists
  let name ← Reader.optionalName
  let table ← optionalClause .ON Reader.name
  skipStatement
  return { name, table }

def readDropTable : Reader DropTable := do
  Reader.keyword .DROP
  Reader.keyword .TABLE
  let ifExists ←
    if ← Reader.optional (.keyword .IF) then
      Reader.keyword .EXISTS
      pure true
    else pure false
  return { table := ← Reader.name, ifExists }

/-- The statement ends here. -/
def atEnd : List Token → Bool
  | [] => true
  | t :: _ => t.kind = .mark .semicolon

def readAlterTable : Reader AddColumn := do
  Reader.keyword .ALTER
  Reader.keyword .TABLE
  let table ← Reader.name
  if atEnd (← Reader.ahead) then refuse .expectedAddColumn
  else if ← Reader.optional (.keyword .ADD) then
    let _ ← Reader.optional (.keyword .COLUMN)
    match ← readDefinition with
    | .column column => return { table, column }
    | _ => settle (.error .onlyAddColumn)
  else settle (.error .onlyAddColumn)

/-- Passes over the first token, whatever it is. -/
def skipOne : Reader Unit := fun ts => .ok ((), ⟨ts.drop 1, List.drop_suffix 1 ts⟩)

def readShowTables : Reader Unit := do
  Reader.keyword .SHOW
  Reader.keyword .TABLES

def readDescribe : Reader String := do
  skipOne
  Reader.name

/-- Reads a statement of a given kind. -/
def readKind : StatementKind → Reader Statement
  | .select => do return .select (← readSelect)
  | .insert => do return .insert (← readInsert)
  | .update => do return .update (← readUpdate)
  | .delete => do return .delete (← readDelete)
  | .createTable => do return .createTable (← readCreateTable)
  | .createIndex => do return .createIndex (← readCreateIndex)
  | .dropTable => do return .dropTable (← readDropTable)
  | .alterTable => do return .addColumn (← readAlterTable)
  | .showTables => do
    readShowTables
    return .showTables
  | .describe => do return .describe (← readDescribe)

/-- Reads a statement up to the end of the text. -/
def readWhole (kind : StatementKind) : Reader Statement := do
  let statement ← readKind kind
  let _ ← Reader.optional (.mark .semicolon)
  match ← Reader.ahead with
  | [] => return statement
  | t :: _ => refuse (.unexpected t.text)

end Grammar

/-- The statement of a given kind that a list of tokens is. -/
def Statement.ofTokens (kind : StatementKind) (list : TokenList) : Except SqlError Statement :=
  match Grammar.readWhole kind list.tokens with
  | .error refusal => .error (refusal.toError list.finish)
  | .ok (statement, _) => .ok statement

/-- The tokens of a text, or the failure to find them. -/
def TokenList.ofText (sql : String) : Except SqlError TokenList :=
  match Lexer.tokens sql with
  | .error fault => .error (.wording (.lexical fault))
  | .ok list => .ok list

/-- The statement of a given kind that a text is. -/
def Statement.ofTextAs (kind : StatementKind) (sql : String) : Except SqlError Statement := do
  ofTokens kind (← TokenList.ofText sql)

/-- The statement that a text without comments is. A text of no known kind is shown in the failure
up to `previewLimit` characters. -/
def Statement.ofText (previewLimit : Nat) (sql : String) : Except SqlError Statement :=
  match StatementKind.ofText? sql with
  | none => .error (.wording (.unknownStatement (Script.preview previewLimit sql)))
  | some kind => ofTextAs kind sql

end SqlEngine
