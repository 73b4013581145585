import SqlEngine.Grammar.Condition
import SqlEngine.Statement

/-!
# Reading queries

The clauses of SELECT in their fixed order: items, tables with their joins, filter, grouping,
order, and page.
-/
namespace SqlEngine.Grammar

/-- A name with a point and a star lies ahead. -/
def startsStarOf : List Token → Bool
  | t :: u :: v :: _ => t.name?.isSome && u.kind = .mark .dot && v.kind = .mark .star
  | _ => false

/-- Reads a name behind the word AS, or a name on its own if one lies ahead. -/
def readAlias (nameReader : Reader String) : Reader (Option String) := do
  if ← Reader.optional (.keyword .AS) then return some (← nameReader)
  else if Reader.startsName (← Reader.ahead) then return some (← nameReader)
  else return none

/-- Reads an expression with the text that it is written as. -/
def readWritten : Reader (Expr × String) := do
  let before ← Reader.ahead
  let e ← readExpr
  let after ← Reader.ahead
  let taken := before.take (before.length - after.length)
  return (e, Text.collapse (Token.textOf taken))

/-- Reads an item of a select list. -/
def readItem : Reader SelectItem := do
  if ← Reader.optional (.mark .star) then return .star
  else if startsStarOf (← Reader.ahead) then
    let qualifier ← Reader.identifier
    Reader.mark .dot
    Reader.mark .star
    return .starOf qualifier
  else
    let (e, text) ← readWritten
    return .expr e (← readAlias Reader.identifier) text

/-- Reads a table, perhaps with another name. -/
def readTable : Reader TableRef := do
  let name ← Reader.name
  return ⟨name, ← readAlias Reader.name⟩

/-- Reads two columns that have to be equal. -/
def readPair : Reader (ColumnRef × ColumnRef) := do
  let left ← readColumnRef
  Reader.mark .eq
  return (left, ← readColumnRef)

/-- Reads the condition of a join, which may stand in brackets. -/
def readPairs : Reader (List (ColumnRef × ColumnRef)) := do
  let bracketed ← Reader.optional (.mark .leftParen)
  let pairs ← Reader.separated (.keyword .AND) readPair
  if bracketed then Reader.mark .rightParen
  return pairs

/-- The kind of the join that a token begins. -/
def joinKind? : TokenKind → Option JoinKind
  | .keyword .JOIN | .keyword .INNER => some .inner
  | .keyword .LEFT => some .left
  | .keyword .RIGHT => some .right
  | .keyword .FULL => some .full
  | .keyword .CROSS => some .cross
  | _ => none

/-- Reads what follows the first word of a join. That word may have been JOIN itself. -/
def readJoin (kind : JoinKind) (plain : Bool) : Reader JoinClause := do
  if !plain then
    let _ ← Reader.optional (.keyword .OUTER)
    Reader.keyword .JOIN
  let table ← readTable
  if ← Reader.optional (.keyword .ON) then return ⟨kind, table, ← readPairs⟩
  else if kind = .cross then return ⟨kind, table, []⟩
  else refuse .expectedOn

/-- Reads the joins that follow the first table. -/
def readJoins : Reader (List JoinClause)
  | [] => .ok ([], .whole [])
  | t :: ts =>
    match joinKind? t.kind with
    | none => .ok ([], .whole _)
    | some kind =>
      match readJoin kind (t.kind = .keyword .JOIN) ts with
      | .error e => .error e
      | .ok (clause, r) =>
        match readJoins r.1 with
        | .error e => .error e
        | .ok (clauses, s) => .ok (clause :: clauses, .tail t ts (r.trans s))
termination_by ts => ts.length
decreasing_by
  have := r.length_le
  simp only [List.length_cons]
  omega

/-- Reads a clause behind its keyword, if the keyword is there. -/
def optionalClause {α : Type} (word : Keyword) (body : Reader α) : Reader (Option α) := do
  if ← Reader.optional (.keyword word) then return some (← body) else return none

/-- Reads an item of ORDER BY; the order is ascending unless DESC follows. -/
def readOrderItem : Reader OrderItem := do
  let e ← readExpr
  if ← Reader.optional (.keyword .DESC) then return ⟨e, false⟩
  else
    let _ ← Reader.optional (.keyword .ASC)
    return ⟨e, true⟩

/-- Reads a number of rows. -/
def readCount : Reader Nat
  | [] => .error (.complaint none .expectedNumber)
  | t :: ts =>
    match t.kind with
    | .number x =>
      if x < 0 || !Number.isWhole x then .error (.complaint t .expectedCount)
      else .ok (Number.countOf x, .tail t ts (.whole ts))
    | _ => .error (.complaint t .expectedNumber)

/-- Reads a SELECT. -/
def readSelect : Reader Select := do
  Reader.keyword .SELECT
  let distinct ← Reader.optional (.keyword .DISTINCT)
  let items ← Reader.separated (.mark .comma) readItem
  Reader.keyword .FROM
  let source ← readTable
  let joins ← readJoins
  let filter ← optionalClause .WHERE readCondition
  let groupBy ← optionalClause .GROUP do
    Reader.keyword .BY
    Reader.separated (.mark .comma) readColumnRef
  let having ← optionalClause .HAVING readCondition
  let orderBy ← optionalClause .ORDER do
    Reader.keyword .BY
    Reader.separated (.mark .comma) readOrderItem
  let limit ← optionalClause .LIMIT readCount
  let offset ← optionalClause .OFFSET readCount
  return { distinct, items, source, joins, filter, groupBy, having
           orderBy := orderBy.getD [], limit, offset }

end SqlEngine.Grammar
