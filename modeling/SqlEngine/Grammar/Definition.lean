import SqlEngine.Column
import SqlEngine.Grammar.Reader

/-!
# Reading column definitions

The body of CREATE TABLE is cut into definitions at the commas outside brackets; each definition
is then a column or a constraint on the table. Of a column only its type word and the pairs
PRIMARY KEY and NOT NULL matter; of the constraints on the table only the primary key does.
-/
namespace SqlEngine.Grammar

/-- A definition in the body of CREATE TABLE. -/
inductive Definition where
  | column (column : Column)
  | primaryKey (names : List String)
  | otherConstraint

/-- The tokens of a definition: those up to a comma or closing bracket outside brackets. At the end
of the statement there must be one at least, and no bracket may be open. -/
def definitionTokens (depth : Nat) (started : Bool) : List Token → Except Refusal (List Token)
  | [] =>
    if depth = 0 && started then .ok [] else .error (.complaint none .expectedClosing)
  | t :: ts =>
    let go (depth : Nat) := (definitionTokens depth true ts).map (t :: ·)
    match t.kind with
    | .mark .leftParen => go (depth + 1)
    | .mark .rightParen => if depth = 0 then .ok [] else go (depth - 1)
    | .mark .comma => if depth = 0 then .ok [] else go depth
    | .mark .semicolon =>
      if depth = 0 && started then .ok [] else .error (.complaint t .expectedClosing)
    | _ => go depth

/-- Two kinds stand next to each other somewhere in the tokens. -/
def hasPair (first second : TokenKind) : List Token → Bool
  | t :: u :: rest => (t.kind = first && u.kind = second) || hasPair first second (u :: rest)
  | _ => false

/-- The names in the brackets of a primary key. -/
def keyNames (tokens : List Token) : List String :=
  (tokens.dropWhile fun t => t.kind ≠ .mark .leftParen).filterMap Token.name?

/-- The type of a column: its second token, if that is an identifier. -/
def typeWord : List Token → String
  | _ :: t :: _ =>
    match t.kind with
    | .identifier _ => t.text
    | _ => "TEXT"
  | _ => "TEXT"

/-- The definition that some tokens are. -/
def definitionOf (tokens : List Token) (next : Option Token) : Except Refusal Definition :=
  match tokens with
  | [] => .error (.complaint next .expectedDefinition)
  | first :: _ =>
    match first.kind with
    | .keyword .PRIMARY => .ok (.primaryKey (keyNames tokens))
    | .keyword .UNIQUE | .keyword .FOREIGN | .keyword .CHECK | .keyword .CONSTRAINT =>
      .ok .otherConstraint
    | _ =>
      match first.name? with
      | none => .error (.complaint first .expectedColumnName)
      | some name =>
        .ok (.column { Column.plain name (typeWord tokens) with
          primaryKey := hasPair (.keyword .PRIMARY) (.keyword .KEY) tokens
          notNull := hasPair (.keyword .NOT) (.keyword .NULL) tokens })

/-- Reads one definition. -/
def readDefinition : Reader Definition := fun ts =>
  match definitionTokens 0 false ts with
  | .error e => .error e
  | .ok taken =>
    let rest : Rest ts := ⟨ts.drop taken.length, List.drop_suffix _ ts⟩
    match definitionOf taken rest.1.head? with
    | .error e => .error e
    | .ok definition => .ok (definition, rest)

/-- The columns and the names of the primary key collected from the definitions read so far. -/
structure Body where
  columns : List Column
  key : List String

/-- The body with one more definition. A column must not be there already. -/
def Body.add (table : String) (body : Body) : Definition → Except Refusal Body
  | .column column =>
    if body.columns.any (·.name == column.name) then
      .error (.schema (.duplicateColumn column.name table))
    else .ok { body with columns := body.columns ++ [column] }
  | .primaryKey names => .ok { body with key := body.key ++ names }
  | .otherConstraint => .ok body

/-- Reads the definitions between the brackets of CREATE TABLE. -/
def readBody (table : String) (body : Body) (ts : List Token) : Reading Body ts :=
  match readDefinition ts with
  | .error e => .error e
  | .ok (definition, r) =>
    match body.add table definition with
    | .error e => .error e
    | .ok body =>
      match hr : r.1 with
      | [] => .ok (body, r)
      | t :: after =>
        if t.kind = .mark .comma then
          match readBody table body after with
          | .error e => .error e
          | .ok (whole, s) =>
            .ok (whole, ⟨s.1, (s.2.trans (List.suffix_cons t after)).trans (hr ▸ r.2)⟩)
        else .ok (body, r)
termination_by ts.length
decreasing_by
  have := r.length_le
  rw [hr] at this
  simp only [List.length_cons] at this
  omega

/-- Makes the first column with the given name a primary key. -/
def markKey (name : String) : List Column → Except Refusal (List Column)
  | [] => .error (.schema (.unknownColumn name))
  | column :: rest =>
    if Text.sameName column.name name then .ok ({ column with primaryKey := true } :: rest)
    else (markKey name rest).map (column :: ·)

/-- The columns with the named ones as primary keys. -/
def markKeys (columns : List Column) : List String → Except Refusal (List Column)
  | [] => .ok columns
  | name :: rest => do markKeys (← markKey name columns) rest

/-- A reader that takes nothing and has a given outcome. -/
def settle {α : Type} (outcome : Except Refusal α) : Reader α := fun ts =>
  match outcome with
  | .error e => .error e
  | .ok a => .ok (a, .whole ts)

end SqlEngine.Grammar
