import SqlEngine.Expr
import SqlEngine.Grammar.Reader

/-!
# Reading expressions

An expression is read operand by operand: an operator is taken as long as it binds at least as
tightly as the floor allows, and its right side is read with a higher floor, so that operators of
one level group to the left. A minus sign before a number makes a negative number.
-/
namespace SqlEngine.Grammar

/-- The operator that a token is. -/
def operator? : TokenKind → Option Operator
  | .mark .plus => some .add
  | .mark .minus => some .sub
  | .mark .star => some .mul
  | .mark .slash => some .div
  | _ => none

/-- An expression behind a minus sign. -/
def negated : Expr → Expr
  | .literal (.number x) => .literal (.number (-x))
  | e => .negate e

/-- A call, if the function takes that many arguments. -/
def callOf (f : Function) (distinct : Bool) (arguments : List Expr) : Except Refusal Expr :=
  if f.takes arguments.length then .ok (.call f distinct arguments)
  else .error (.argumentCount f arguments.length)

/-- Takes the word DISTINCT at the front of the arguments of COUNT, and says whether it did. -/
def readDistinct (f : Function) (ts : List Token) : Bool × Rest ts :=
  match ts with
  | [] => (false, .whole [])
  | t :: after =>
    if f = .count && t.kind = .keyword .DISTINCT then (true, .tail t after (.whole after))
    else (false, .whole _)

mutual

/-- Reads an expression whose outer operators bind at least as tightly as `floor`. -/
def readExprFrom (floor : Nat) (ts : List Token) : Reading Expr ts :=
  match readOperand ts with
  | .error e => .error e
  | .ok (left, r) =>
    match readOperators floor left r.1 with
    | .error e => .error e
    | .ok (whole, s) => .ok (whole, r.trans s)
termination_by 4 * ts.length + 2
decreasing_by
  · omega
  · have := r.length_le
    omega

/-- Reads the operators that follow `left`, with their right sides. -/
def readOperators (floor : Nat) (left : Expr) (ts : List Token) : Reading Expr ts :=
  match ts with
  | [] => .ok (left, .whole [])
  | t :: after =>
    match operator? t.kind with
    | none => .ok (left, .whole (t :: after))
    | some op =>
      if op.precedence < floor then .ok (left, .whole (t :: after))
      else
        match readExprFrom (op.precedence + 1) after with
        | .error e => .error e
        | .ok (right, r) =>
          match readOperators floor (.binary op left right) r.1 with
          | .error e => .error e
          | .ok (whole, s) => .ok (whole, .tail t after (r.trans s))
termination_by 4 * ts.length
decreasing_by
  · simp only [List.length_cons]
    omega
  · have := r.length_le
    simp only [List.length_cons]
    omega

/-- Reads an operand: a literal, a column, a call, a bracketed expression, or an operand behind a
sign. -/
def readOperand (ts : List Token) : Reading Expr ts :=
  match ts with
  | [] => .error (.complaint none (.unexpected (textAt [])))
  | t :: after =>
    match t.kind with
    | .mark .minus =>
      match readOperand after with
      | .error e => .error e
      | .ok (e, r) => .ok (negated e, .tail t after r)
    | .mark .plus =>
      match readOperand after with
      | .error e => .error e
      | .ok (e, r) => .ok (e, .tail t after r)
    | .mark .leftParen =>
      match readExprFrom 0 after with
      | .error e => .error e
      | .ok (e, r) =>
        match Reader.mark .rightParen r.1 with
        | .error e => .error e
        | .ok (_, s) => .ok (e, .tail t after (r.trans s))
    | .number x => .ok (.literal (.number x), .tail t after (.whole after))
    | .string _ content => .ok (.literal (.text content), .tail t after (.whole after))
    | .keyword .NULL => .ok (.literal .null, .tail t after (.whole after))
    | _ =>
      match t.name? with
      | none => .error (.complaint t (.unexpected t.text))
      | some name =>
        match after with
        | [] => .ok (.column ⟨none, name⟩, .tail t [] (.whole []))
        | u :: rest =>
          if u.kind = .mark .leftParen then
            match Function.ofName? name with
            | none => .error (.complaint u (.unknownFunction name))
            | some f =>
              match readArguments f rest with
              | .error e => .error e
              | .ok (call, r) => .ok (call, .tail t _ (.tail u rest r))
          else if u.kind = .mark .dot then
            match Reader.identifier rest with
            | .error e => .error e
            | .ok (column, r) =>
              .ok (.column ⟨some (Text.lower name), column⟩, .tail t _ (.tail u rest r))
          else .ok (.column ⟨none, name⟩, .tail t _ (.whole _))
termination_by 4 * ts.length + 1
decreasing_by
  all_goals
    simp only [List.length_cons]
    omega

/-- Reads the arguments of a call, after its opening bracket, up to and with the closing one. -/
def readArguments (f : Function) (ts : List Token) : Reading Expr ts :=
  match readDistinct f ts with
  | (distinct, start) =>
    match readArgumentList f start.1 with
    | .error e => .error e
    | .ok (es, r) =>
      match Reader.mark .rightParen r.1 with
      | .error e => .error e
      | .ok (_, s) =>
        match callOf f distinct es with
        | .error e => .error e
        | .ok call => .ok (call, start.trans (r.trans s))
termination_by 4 * ts.length + 5
decreasing_by
  have := start.length_le
  omega

/-- Reads what stands between the brackets of a call: a star, nothing, or expressions. -/
def readArgumentList (f : Function) (ts : List Token) : Reading (List Expr) ts :=
  match ts with
  | [] => readExprs []
  | t :: after =>
    if t.kind = .mark .star then
      if f = .count then .ok ([.star], .tail t after (.whole after))
      else .error (.complaint t (.starNotSupported f))
    else if t.kind = .mark .rightParen then .ok ([], .whole _)
    else readExprs (t :: after)
termination_by 4 * ts.length + 4

/-- Reads one or more expressions with commas between them. -/
def readExprs (ts : List Token) : Reading (List Expr) ts :=
  match readExprFrom 0 ts with
  | .error e => .error e
  | .ok (e, r) =>
    match hr : r.1 with
    | [] => .ok ([e], r)
    | t :: after =>
      if t.kind = .mark .comma then
        match readExprs after with
        | .error e => .error e
        | .ok (es, s) =>
          .ok (e :: es, ⟨s.1, (s.2.trans (List.suffix_cons t after)).trans (hr ▸ r.2)⟩)
      else .ok ([e], r)
termination_by 4 * ts.length + 3
decreasing_by
  · omega
  · have := r.length_le
    rw [hr] at this
    simp only [List.length_cons] at this
    omega

end

/-- Reads an expression. -/
def readExpr : Reader Expr := readExprFrom 0

/-- Reads the name of a column, perhaps behind the name of its table. -/
def readColumnRef : Reader ColumnRef := do
  let first ← Reader.identifier
  if ← Reader.optional (.mark .dot) then
    return ⟨some (Text.lower first), ← Reader.identifier⟩
  else return ⟨none, first⟩

end SqlEngine.Grammar
