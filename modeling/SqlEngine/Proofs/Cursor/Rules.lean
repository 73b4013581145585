import SqlEngine.Proofs.Cursor.Parser

/-!
# The rules of the grammar by position

Expressions, conditions, queries, definitions and statements, each rule as a program, and the
bodies of the routines. Twice the position goes back to where a condition began: when brackets turn
out to belong to an expression, and when a condition has none of the known forms.
-/
namespace SqlEngine.Cursor

open Grammar

namespace Parser

section Expressions

/-- The arguments of a call are as many as the function takes. -/
def checkedCall (f : Function) (distinct : Bool) (arguments : List Expr) : Parser Expr :=
  if f.takes arguments.length then return .call f distinct arguments
  else refuse (.wording (.argumentCount f arguments.length))

/-- Goes past the word DISTINCT at the front of the arguments of COUNT, and says whether it did. -/
def distinctWord (f : Function) : Parser Bool :=
  if f = .count then matchToken (.keyword .DISTINCT) else return false

/-- An expression whose outer operators bind at least as tightly as `floor`. -/
def expr (floor : Nat) : Parser Expr := call (.expr floor)

/-- The operators that follow `left`, with their right sides. -/
def operators (floor : Nat) (left : Expr) : Parser Expr := call (.operators floor left)

def exprList : Parser (List Expr) := call .exprList

def argumentList (f : Function) : Parser (List Expr) := do
  if (← current).kind = some (.mark .star) then
    if f ≠ .count then fail (.starNotSupported f)
    else
      advance
      return [.star]
  else if (← current).kind = some (.mark .rightParen) then return []
  else exprList

def functionCall (name : String) : Parser Expr := do
  match Function.ofName? name with
  | none => fail (.unknownFunction name)
  | some f =>
    mark .leftParen
    let distinct ← distinctWord f
    let arguments ← argumentList f
    mark .rightParen
    checkedCall f distinct arguments

/-- A call or a column. -/
def named : Parser Expr := do
  if ← isName (← current) then
    let name ← identifier
    if (← current).kind = some (.mark .leftParen) then functionCall name
    else if ← matchToken (.mark .dot) then
      return .column ⟨some (Text.lower name), ← identifier⟩
    else return .column ⟨none, name⟩
  else fail (.unexpected (← currentText))

def prefixExpr : Parser Expr := do
  match (← current).kind with
  | some (.mark .minus) =>
    advance
    return negated (← expr 10)
  | some (.mark .plus) =>
    advance
    expr 10
  | some (.mark .leftParen) =>
    advance
    let inner ← expr 0
    mark .rightParen
    return inner
  | some (.number x) =>
    advance
    return .literal (.number x)
  | some (.string _ content) =>
    advance
    return .literal (.text content)
  | some (.keyword .NULL) =>
    advance
    return .literal .null
  | _ => named

def columnRef : Parser ColumnRef := do
  let first ← identifier
  if ← matchToken (.mark .dot) then return ⟨some (Text.lower first), ← identifier⟩
  else return ⟨none, first⟩

end Expressions

section Conditions

/-- A condition ends here. -/
def boundary : Parser Bool := do
  match (← current).kind with
  | none => return true
  | some kind => return endsCondition kind

def compareOp : Parser Comparison := do
  match (← current).kind.bind comparison? with
  | none => fail .expectedComparison
  | some op =>
    advance
    return op

def between (subject : Expr) (negated : Bool) : Parser Condition := do
  let low ← expr 0
  keyword .AND
  let high ← expr 0
  return .between subject low high negated

def oneOf (subject : Expr) (negated : Bool) : Parser Condition := do
  mark .leftParen
  let items ← exprList
  mark .rightParen
  return .oneOf subject items negated

/-- What follows the subject of a condition and a word NOT, if there was one. -/
def form (subject : Expr) (negated : Bool) : Parser Condition := do
  if ← matchToken (.keyword .BETWEEN) then between subject negated
  else if ← matchToken (.keyword .IN) then oneOf subject negated
  else if ← matchToken (.keyword .LIKE) then return .like subject (← expr 0) negated
  else if negated then fail .expectedNegatable
  else
    let op ← compareOp
    return .compare op subject (← expr 0)

/-- A condition in one of the known forms. -/
def atom : Parser Condition := do
  let subject ← expr 0
  if ← matchToken (.keyword .IS) then
    let negated ← matchToken (.keyword .NOT)
    keyword .NULL
    return .isNull subject negated
  else form subject (← matchToken (.keyword .NOT))

/-- The byte offset up to which a condition in no known form goes. `stop` is what it has come to so
far, `depth` counts the open brackets. -/
def skipUnrecognized (stop depth : Nat) (pending : Bool) : Parser Nat :=
  call (.skipUnrecognized stop depth pending)

/-- A condition in no known form, as it stands. -/
def unrecognized : Parser Condition := do
  let start := (← current).start.offset
  let stop ← skipUnrecognized start 0 false
  return .unrecognized (← slice start stop)

/-- A condition in one of the known forms up to a boundary, or else one in no known form, which is
taken from the position where the other one began. -/
def simple (start : Nat) : Parser Condition := do
  match ← attempt atom with
  | .ok known =>
    if ← boundary then return known
    else
      moveTo start
      unrecognized
  | .error _ =>
    moveTo start
    unrecognized

def predicate : Parser Condition := call .predicate

def negation : Parser Condition := call .negation

def conjunction : Parser Condition := do
  let first ← negation
  return conjunctionOf first (← furtherItems (.keyword .AND) negation)

/-- A condition in brackets whose closing bracket and a boundary follow. -/
def closed (inner : Condition) : Parser (Option Condition) := do
  if ← matchToken (.mark .rightParen) then
    if ← boundary then return some inner else return none
  else return none

/-- A condition in brackets, or nothing where the brackets belong to an expression. -/
def group : Parser (Option Condition) := do
  advance
  match ← attempt predicate with
  | .error _ => return none
  | .ok inner => closed inner

/-- A bracketed condition that ends at a boundary. Otherwise the position goes back, and a simple
condition is tried. -/
def primary : Parser Condition := do
  if ← boundary then fail .expectedCondition
  else
    let start ← position
    if (← current).kind = some (.mark .leftParen) then
      match ← group with
      | some inner => return inner
      | none =>
        moveTo start
        simple start
    else simple start

end Conditions

section Queries

/-- A name with a point and a star lies ahead. -/
def startsStarOf : Parser Bool := do
  if ← isName (← current) then
    if (← peek 1).kind = some (.mark .dot) then return (← peek 2).kind = some (.mark .star)
    else return false
  else return false

/-- A name behind the word AS, or a name on its own if one lies ahead. -/
def otherName (nameParser : Parser String) : Parser (Option String) := do
  if ← matchToken (.keyword .AS) then return some (← nameParser)
  else if ← isName (← current) then return some (← nameParser)
  else return none

/-- An expression with the text that it is written as. -/
def written : Parser (Expr × String) := do
  let start := (← current).start.offset
  let e ← expr 0
  let text ← slice start (← previousStop)
  return (e, Text.collapse text)

def item : Parser SelectItem := do
  if ← matchToken (.mark .star) then return .star
  else if ← startsStarOf then
    let qualifier ← identifier
    advance
    advance
    return .starOf qualifier
  else
    let (e, text) ← written
    return .expr e (← otherName identifier) text

def table : Parser TableRef := do
  let name ← name
  return ⟨name, ← otherName Parser.name⟩

def pair : Parser (ColumnRef × ColumnRef) := do
  let left ← columnRef
  mark .eq
  return (left, ← columnRef)

def pairs : Parser (List (ColumnRef × ColumnRef)) := do
  let bracketed ← matchToken (.mark .leftParen)
  let pairs ← separated (.keyword .AND) pair
  if bracketed then mark .rightParen
  return pairs

/-- What follows the words of a join. -/
def joined (kind : JoinKind) : Parser JoinClause := do
  let table ← table
  if ← matchToken (.keyword .ON) then return ⟨kind, table, ← pairs⟩
  else if kind = .cross then return ⟨kind, table, []⟩
  else fail .expectedOn

/-- Before the word JOIN may stand the kind of the join, and behind that the word OUTER. -/
def join (kind : JoinKind) : Parser JoinClause := do
  if (← current).kind = some (.keyword .JOIN) then
    keyword .JOIN
    joined kind
  else
    advance
    let _ ← matchToken (.keyword .OUTER)
    keyword .JOIN
    joined kind

def joins : Parser (List JoinClause) := call .joins

def orderItem : Parser OrderItem := do
  let e ← expr 0
  if ← matchToken (.keyword .DESC) then return ⟨e, false⟩
  else
    let _ ← matchToken (.keyword .ASC)
    return ⟨e, true⟩

def count : Parser Nat := do
  match (← current).kind with
  | some (.number x) =>
    if x < 0 || !Number.isWhole x then fail .expectedCount
    else
      advance
      return Number.countOf x
  | _ => fail .expectedNumber

def select : Parser Select := do
  keyword .SELECT
  let distinct ← matchToken (.keyword .DISTINCT)
  let items ← separated (.mark .comma) item
  keyword .FROM
  let source ← table
  let joins ← joins
  let filter ← optionalClause .WHERE predicate
  let groupBy ← optionalClause .GROUP do
    keyword .BY
    separated (.mark .comma) columnRef
  let having ← optionalClause .HAVING predicate
  let orderBy ← optionalClause .ORDER do
    keyword .BY
    separated (.mark .comma) orderItem
  let limit ← optionalClause .LIMIT count
  let offset ← optionalClause .OFFSET count
  return { distinct, items, source, joins, filter, groupBy, having
           orderBy := orderBy.getD [], limit, offset }

end Queries

section Definitions

/-- Goes up to a comma or closing bracket outside brackets. `start` is where the definition begins,
`depth` counts the open brackets. -/
def skipDefinition (start depth : Nat) : Parser Unit := call (.skipDefinition start depth)

/-- The indices between which the tokens of a definition lie. -/
def definitionRange : Parser (Nat × Nat) := do
  let start ← position
  skipDefinition start 0
  return (start, ← position)

/-- The names among some tokens. -/
def names : List Placed → Parser (List String)
  | [] => return []
  | token :: rest => do
    if ← isName token then
      let name ← nameText token
      return name :: (← names rest)
    else names rest

/-- The type of a column: its second token, if that is an identifier. -/
def typeWord : List Placed → Parser String
  | _ :: token :: _ =>
    match token.kind with
    | some (.identifier _) => tokenText token
    | _ => return "TEXT"
  | _ => return "TEXT"

/-- Two kinds stand next to each other somewhere in the tokens. -/
def hasPair (first second : TokenKind) : List Placed → Bool
  | t :: u :: rest =>
    (t.kind = some first && u.kind = some second) || hasPair first second (u :: rest)
  | _ => false

/-- The column that some tokens, of which `first` is the first, define. -/
def columnDefinition (first : Placed) (tokens : List Placed) : Parser Definition := do
  if ← isName first then
    let name ← nameText first
    let type ← typeWord tokens
    return .column { Column.plain name type with
      primaryKey := hasPair (.keyword .PRIMARY) (.keyword .KEY) tokens
      notNull := hasPair (.keyword .NOT) (.keyword .NULL) tokens }
  else failAt first .expectedColumnName

/-- The definition that some tokens are. -/
def definitionOf (tokens : List Placed) : Parser Definition :=
  match tokens with
  | [] => fail .expectedDefinition
  | first :: _ =>
    match first.kind with
    | some (.keyword .PRIMARY) =>
      return .primaryKey (← names (tokens.dropWhile fun t => t.kind ≠ some (.mark .leftParen)))
    | some (.keyword .UNIQUE) | some (.keyword .FOREIGN) | some (.keyword .CHECK)
    | some (.keyword .CONSTRAINT) => return .otherConstraint
    | _ => columnDefinition first tokens

def definition : Parser Definition := do
  let (start, stop) ← definitionRange
  definitionOf (← tokensBetween start stop)

/-- The columns and key names so far with one more definition. -/
def add (table : String) (body : Body) : Definition → Parser Body
  | .column column =>
    if body.columns.any (·.name == column.name) then
      refuse (.schema (.duplicateColumn column.name table))
    else return { body with columns := body.columns ++ [column] }
  | .primaryKey names => return { body with key := body.key ++ names }
  | .otherConstraint => return body

/-- The definitions with commas between them. -/
def definitions (table : String) (body : Body) : Parser Body := call (.definitions table body)

/-- Makes the first column with the given name a primary key. -/
def markKey (name : String) : List Column → Parser (List Column)
  | [] => refuse (.schema (.unknownColumn name))
  | column :: rest => do
    if Text.sameName column.name name then return { column with primaryKey := true } :: rest
    else return column :: (← markKey name rest)

def markKeys (columns : List Column) : List String → Parser (List Column)
  | [] => return columns
  | name :: rest => do markKeys (← markKey name columns) rest

end Definitions

section Statements

/-- A list of values in brackets, which may be empty. -/
def valueGroup : Parser (List Expr) := do
  mark .leftParen
  let group ← if (← current).kind = some (.mark .rightParen) then pure [] else exprList
  mark .rightParen
  return group

def insert : Parser Insert := do
  keyword .INSERT
  keyword .INTO
  let table ← name
  let columns ←
    if ← matchToken (.mark .leftParen) then
      let names ← separated (.mark .comma) name
      mark .rightParen
      pure (some names)
    else pure none
  keyword .VALUES
  return { table, columns, groups := ← separated (.mark .comma) valueGroup }

def assignment : Parser (String × Expr) := do
  let column ← name
  mark .eq
  return (column, ← expr 0)

def update : Parser Update := do
  keyword .UPDATE
  let table ← name
  keyword .SET
  let assignments ← separated (.mark .comma) assignment
  return { table, assignments, filter := ← optionalClause .WHERE predicate }

def delete : Parser Delete := do
  keyword .DELETE
  keyword .FROM
  let table ← name
  return { table, filter := ← optionalClause .WHERE predicate }

def ifNotExists : Parser Bool := do
  if ← matchToken (.keyword .IF) then
    keyword .NOT
    keyword .EXISTS
    return true
  else return false

def createTable : Parser CreateTable := do
  keyword .CREATE
  keyword .TABLE
  let ifNotExists ← ifNotExists
  let table ← name
  mark .leftParen
  let body ← definitions table ⟨[], []⟩
  mark .rightParen
  let columns ← markKeys body.columns body.key
  if columns.isEmpty then fail .noColumns else return { table, ifNotExists, columns }

/-- Goes up to the semicolon or the end of the text. -/
def skipStatement : Parser Unit := call .skipStatement

def optionalName : Parser (Option String) := do
  if ← isName (← current) then return some (← name) else return none

def createIndex : Parser CreateIndex := do
  keyword .CREATE
  let _ ← matchToken (.keyword .UNIQUE)
  keyword .INDEX
  let _ ← ifNotExists
  let name ← optionalName
  let table ← optionalClause .ON Parser.name
  skipStatement
  return { name, table }

def dropTable : Parser DropTable := do
  keyword .DROP
  keyword .TABLE
  let ifExists ←
    if ← matchToken (.keyword .IF) then
      keyword .EXISTS
      pure true
    else pure false
  return { table := ← name, ifExists }

/-- The statement ends here. -/
def atStatementEnd : Parser Bool := do
  match (← current).kind with
  | none => return true
  | some kind => return kind = .mark .semicolon

def alterTable : Parser AddColumn := do
  keyword .ALTER
  keyword .TABLE
  let table ← name
  if ← atStatementEnd then fail .expectedAddColumn
  else if ← matchToken (.keyword .ADD) then
    let _ ← matchToken (.keyword .COLUMN)
    match ← definition with
    | .column column => return { table, column }
    | _ => refuse .onlyAddColumn
  else refuse .onlyAddColumn

def showTables : Parser Unit := do
  keyword .SHOW
  keyword .TABLES

/-- The first word is not looked at. -/
def describe : Parser String := do
  advance
  name

/-- The statement of a given kind. -/
def statement : StatementKind → Parser Statement
  | .select => do return .select (← select)
  | .insert => do return .insert (← insert)
  | .update => do return .update (← update)
  | .delete => do return .delete (← delete)
  | .createTable => do return .createTable (← createTable)
  | .createIndex => do return .createIndex (← createIndex)
  | .dropTable => do return .dropTable (← dropTable)
  | .alterTable => do return .addColumn (← alterTable)
  | .showTables => do
    showTables
    return .showTables
  | .describe => do return .describe (← describe)

/-- The statement of a given kind, with nothing but a semicolon behind it. -/
def whole (kind : StatementKind) : Parser Statement := do
  let statement ← statement kind
  let _ ← matchToken (.mark .semicolon)
  if (← current).kind.isNone then return statement else fail (.unexpected (← currentText))

end Statements

end Parser

open SqlEngine.Cursor.Parser in
/-- What a routine does when it is called. -/
def Routine.body {α : Type} : Routine α → Parser α
  | furtherItems separator item => do
    if ← matchToken separator then
      let next ← item
      return next :: (← Parser.furtherItems separator item)
    else return []
  | expr floor => do
    let left ← prefixExpr
    Parser.operators floor left
  | operators floor left => do
    match (← current).kind.bind operator? with
    | none => return left
    | some op =>
      if op.precedence < floor then return left
      else
        advance
        let right ← Parser.expr (op.precedence + 1)
        Parser.operators floor (.binary op left right)
  | exprList => do
    let first ← Parser.expr 0
    if ← matchToken (.mark .comma) then return first :: (← Parser.exprList) else return [first]
  | predicate => do
    let first ← conjunction
    return disjunctionOf first (← Parser.furtherItems (.keyword .OR) conjunction)
  | negation => do
    if ← matchToken (.keyword .NOT) then return .negation (← Parser.negation) else primary
  | skipUnrecognized stop depth pending => do
    let token ← current
    match token.kind with
    | none => return stop
    | some (.mark .semicolon) => return stop
    | some (.mark .leftParen) =>
      advance
      Parser.skipUnrecognized token.stop (depth + 1) pending
    | some (.mark .rightParen) =>
      if depth = 0 then return stop
      else
        let depth ← lower depth
        advance
        Parser.skipUnrecognized token.stop depth pending
    | some (.keyword .BETWEEN) =>
      advance
      Parser.skipUnrecognized token.stop depth true
    | some (.keyword .AND) =>
      if depth = 0 then
        if pending then
          advance
          Parser.skipUnrecognized token.stop depth false
        else return stop
      else
        advance
        Parser.skipUnrecognized token.stop depth pending
    | some kind =>
      if depth = 0 && endsCondition kind then return stop
      else
        advance
        Parser.skipUnrecognized token.stop depth pending
  | joins => do
    match (← current).kind.bind joinKind? with
    | none => return []
    | some kind =>
      let clause ← join kind
      return clause :: (← Parser.joins)
  | skipDefinition start depth => do
    match (← current).kind with
    | some (.mark .leftParen) =>
      advance
      Parser.skipDefinition start (depth + 1)
    | some (.mark .rightParen) =>
      if depth = 0 then return ()
      else
        let depth ← lower depth
        advance
        Parser.skipDefinition start depth
    | some (.mark .comma) =>
      if depth = 0 then return ()
      else
        advance
        Parser.skipDefinition start depth
    | some (.mark .semicolon) | none =>
      if depth = 0 && start < (← position) then return () else fail .expectedClosing
    | _ =>
      advance
      Parser.skipDefinition start depth
  | definitions table body => do
    let body ← add table body (← definition)
    if ← matchToken (.mark .comma) then Parser.definitions table body else return body
  | skipStatement => do
    match (← current).kind with
    | none => return ()
    | some (.mark .semicolon) => return ()
    | some _ =>
      advance
      Parser.skipStatement

end SqlEngine.Cursor
