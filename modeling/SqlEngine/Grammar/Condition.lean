import SqlEngine.Condition
import SqlEngine.Grammar.Expr

/-!
# Reading conditions

OR binds less tightly than AND, and AND less than NOT. An opening bracket is first tried as the
beginning of a bracketed condition, then as part of an expression. What cannot be read as a
condition up to the next boundary is taken over as it stands, as an unrecognized condition.
-/
namespace SqlEngine.Grammar

/-- A token at which a condition ends. -/
def endsCondition : TokenKind → Bool
  | .keyword .AND | .keyword .OR | .keyword .GROUP | .keyword .HAVING | .keyword .ORDER
  | .keyword .LIMIT | .keyword .OFFSET => true
  | .mark .rightParen | .mark .semicolon => true
  | _ => false

/-- A condition ends here: at such a token or at the end of the text. -/
def atBoundary : List Token → Bool
  | [] => true
  | t :: _ => endsCondition t.kind

/-- The comparison operator that a token is. -/
def comparison? : TokenKind → Option Comparison
  | .mark .eq => some .eq
  | .mark .ne => some .ne
  | .mark .lt => some .lt
  | .mark .gt => some .gt
  | .mark .le => some .le
  | .mark .ge => some .ge
  | _ => none

/-- Reads what follows the word BETWEEN. -/
def readBetween (subject : Expr) (negated : Bool) : Reader Condition := do
  let low ← readExpr
  Reader.keyword .AND
  let high ← readExpr
  return .between subject low high negated

/-- Reads what follows the word IN. -/
def readOneOf (subject : Expr) (negated : Bool) : Reader Condition := do
  Reader.mark .leftParen
  let items ← readExprs
  Reader.mark .rightParen
  return .oneOf subject items negated

/-- Reads what follows the word LIKE. -/
def readLike (subject : Expr) (negated : Bool) : Reader Condition := do
  return .like subject (← readExpr) negated

/-- Reads a comparison operator. -/
def readComparison : Reader Comparison
  | [] => .error (.complaint none .expectedComparison)
  | t :: ts =>
    match comparison? t.kind with
    | some op => .ok (op, .tail t ts (.whole ts))
    | none => .error (.complaint t .expectedComparison)

/-- Reads what follows the subject of a condition and a word NOT, if there was one. -/
def readForm (subject : Expr) (negated : Bool) : Reader Condition := do
  if ← Reader.optional (.keyword .BETWEEN) then readBetween subject negated
  else if ← Reader.optional (.keyword .IN) then readOneOf subject negated
  else if ← Reader.optional (.keyword .LIKE) then readLike subject negated
  else if negated then refuse .expectedNegatable
  else
    let op ← readComparison
    return .compare op subject (← readExpr)

/-- Reads a condition in one of the known forms. -/
def readAtom : Reader Condition := do
  let subject ← readExpr
  if ← Reader.optional (.keyword .IS) then
    let negated ← Reader.optional (.keyword .NOT)
    Reader.keyword .NULL
    return .isNull subject negated
  else
    readForm subject (← Reader.optional (.keyword .NOT))

/-- The tokens of a condition in no known form. Inside brackets nothing ends it but the closing
bracket, a semicolon and the end of the text; the AND that belongs to a BETWEEN does not end it. -/
def skipUnrecognized (depth : Nat) (pending : Bool) : List Token → List Token
  | [] => []
  | t :: ts =>
    match t.kind with
    | .mark .semicolon => []
    | .mark .leftParen => t :: skipUnrecognized (depth + 1) pending ts
    | .mark .rightParen => if depth = 0 then [] else t :: skipUnrecognized (depth - 1) pending ts
    | .keyword .BETWEEN => t :: skipUnrecognized depth true ts
    | .keyword .AND =>
      if depth = 0 then if pending then t :: skipUnrecognized depth false ts else []
      else t :: skipUnrecognized depth pending ts
    | kind => if depth = 0 && endsCondition kind then [] else t :: skipUnrecognized depth pending ts

/-- Takes over a condition in no known form. -/
def readUnrecognized : Reader Condition := fun ts =>
  let taken := skipUnrecognized 0 false ts
  .ok (.unrecognized (Token.textOf taken), ⟨ts.drop taken.length, List.drop_suffix _ ts⟩)

/-- Reads a condition in one of the known forms, up to a boundary, or takes it over as it is. -/
def readSimple : Reader Condition := fun ts =>
  match readAtom ts with
  | .error _ => readUnrecognized ts
  | .ok (c, r) => if atBoundary r.1 then .ok (c, r) else readUnrecognized ts

/-- One branch stands for itself; several make a disjunction. -/
def disjunctionOf (first : Condition) : List Condition → Condition
  | [] => first
  | rest => .disjunction (first :: rest)

/-- One part stands for itself; several make a conjunction. -/
def conjunctionOf (first : Condition) : List Condition → Condition
  | [] => first
  | rest => .conjunction (first :: rest)

mutual

/-- Reads a condition. -/
def readCondition (ts : List Token) : Reading Condition ts :=
  match readConjunction ts with
  | .error e => .error e
  | .ok (first, r) =>
    match readBranches r.1 with
    | .error e => .error e
    | .ok (rest, s) => .ok (disjunctionOf first rest, r.trans s)
termination_by 5 * ts.length + 4
decreasing_by
  · omega
  · have := r.length_le
    omega

/-- Reads the branches after the first one, each behind the word OR. -/
def readBranches (ts : List Token) : Reading (List Condition) ts :=
  match ts with
  | [] => .ok ([], .whole [])
  | t :: after =>
    if t.kind = .keyword .OR then
      match readConjunction after with
      | .error e => .error e
      | .ok (first, r) =>
        match readBranches r.1 with
        | .error e => .error e
        | .ok (rest, s) => .ok (first :: rest, .tail t after (r.trans s))
    else .ok ([], .whole _)
termination_by 5 * ts.length
decreasing_by
  · simp only [List.length_cons]
    omega
  · have := r.length_le
    simp only [List.length_cons]
    omega

/-- Reads conditions joined by AND. -/
def readConjunction (ts : List Token) : Reading Condition ts :=
  match readNegation ts with
  | .error e => .error e
  | .ok (first, r) =>
    match readParts r.1 with
    | .error e => .error e
    | .ok (rest, s) => .ok (conjunctionOf first rest, r.trans s)
termination_by 5 * ts.length + 3
decreasing_by
  · omega
  · have := r.length_le
    omega

/-- Reads the parts after the first one, each behind the word AND. -/
def readParts (ts : List Token) : Reading (List Condition) ts :=
  match ts with
  | [] => .ok ([], .whole [])
  | t :: after =>
    if t.kind = .keyword .AND then
      match readNegation after with
      | .error e => .error e
      | .ok (first, r) =>
        match readParts r.1 with
        | .error e => .error e
        | .ok (rest, s) => .ok (first :: rest, .tail t after (r.trans s))
    else .ok ([], .whole _)
termination_by 5 * ts.length
decreasing_by
  · simp only [List.length_cons]
    omega
  · have := r.length_le
    simp only [List.length_cons]
    omega

/-- Reads a condition that may stand behind the word NOT. -/
def readNegation (ts : List Token) : Reading Condition ts :=
  match ts with
  | [] => readPrimary []
  | t :: after =>
    if t.kind = .keyword .NOT then
      match readNegation after with
      | .error e => .error e
      | .ok (c, r) => .ok (.negation c, .tail t after r)
    else readPrimary (t :: after)
termination_by 5 * ts.length + 2
decreasing_by
  · simp
  · simp only [List.length_cons]
    omega
  · simp only [List.length_cons]
    omega

/-- Reads a bracketed condition that ends at a boundary, or else a simple one. -/
def readPrimary (ts : List Token) : Reading Condition ts :=
  match ts with
  | [] => .error (.complaint none .expectedCondition)
  | t :: after =>
    if endsCondition t.kind then .error (.complaint t .expectedCondition)
    else if t.kind = .mark .leftParen then
      match readCondition after with
      | .error _ => readSimple (t :: after)
      | .ok (c, r) =>
        match Reader.mark .rightParen r.1 with
        | .error _ => readSimple (t :: after)
        | .ok (_, s) =>
          if atBoundary s.1 then .ok (c, .tail t after (r.trans s)) else readSimple (t :: after)
    else readSimple (t :: after)
termination_by 5 * ts.length + 1
decreasing_by
  simp only [List.length_cons]
  omega

end

end SqlEngine.Grammar
