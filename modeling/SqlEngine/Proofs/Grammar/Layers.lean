import SqlEngine.Grammar.Expr

/-!
# The layers of the grammar of expressions

A sum is a row of products with plus or minus between them, a product is a row of operands with a
star or a slash between them, and an operand is a literal, a column, a call or a sum in brackets,
perhaps behind signs. Each layer has a reader of its own here, and no numbers say how tightly an
operator binds.
-/
namespace SqlEngine.Grammar

/-- The operator between two products of a sum. -/
def additive? : TokenKind → Option Operator
  | .mark .plus => some .add
  | .mark .minus => some .sub
  | _ => none

/-- The operator between two operands of a product. -/
def multiplicative? : TokenKind → Option Operator
  | .mark .star => some .mul
  | .mark .slash => some .div
  | _ => none

mutual

/-- Reads a sum: a product, and further ones as long as plus or minus stands before them. -/
def readSum (ts : List Token) : Reading Expr ts :=
  match readProduct ts with
  | .error e => .error e
  | .ok (left, r) =>
    match readTerms left r.1 with
    | .error e => .error e
    | .ok (whole, s) => .ok (whole, r.trans s)
termination_by 8 * ts.length + 4
decreasing_by
  · omega
  · have := r.length_le
    omega

/-- Reads the products that follow the sum `left`. -/
def readTerms (left : Expr) (ts : List Token) : Reading Expr ts :=
  match ts with
  | [] => .ok (left, .whole [])
  | t :: after =>
    match additive? t.kind with
    | none => .ok (left, .whole (t :: after))
    | some op =>
      match readProduct after with
      | .error e => .error e
      | .ok (right, r) =>
        match readTerms (.binary op left right) r.1 with
        | .error e => .error e
        | .ok (whole, s) => .ok (whole, .tail t after (r.trans s))
termination_by 8 * ts.length
decreasing_by
  · simp only [List.length_cons]
    omega
  · have := r.length_le
    simp only [List.length_cons]
    omega

/-- Reads a product: an operand, and further ones as long as a star or a slash stands before
them. -/
def readProduct (ts : List Token) : Reading Expr ts :=
  match readUnary ts with
  | .error e => .error e
  | .ok (left, r) =>
    match readFactors left r.1 with
    | .error e => .error e
    | .ok (whole, s) => .ok (whole, r.trans s)
termination_by 8 * ts.length + 3
decreasing_by
  · omega
  · have := r.length_le
    omega

/-- Reads the operands that follow the product `left`. -/
def readFactors (left : Expr) (ts : List Token) : Reading Expr ts :=
  match ts with
  | [] => .ok (left, .whole [])
  | t :: after =>
    match multiplicative? t.kind with
    | none => .ok (left, .whole (t :: after))
    | some op =>
      match readUnary after with
      | .error e => .error e
      | .ok (right, r) =>
        match readFactors (.binary op left right) r.1 with
        | .error e => .error e
        | .ok (whole, s) => .ok (whole, .tail t after (r.trans s))
termination_by 8 * ts.length
decreasing_by
  · simp only [List.length_cons]
    omega
  · have := r.length_le
    simp only [List.length_cons]
    omega

/-- Reads an operand, perhaps behind signs. A minus sign makes a number negative. -/
def readUnary (ts : List Token) : Reading Expr ts :=
  match ts with
  | [] => readUnsigned []
  | t :: after =>
    match t.kind with
    | .mark .minus =>
      match readUnary after with
      | .error e => .error e
      | .ok (e, r) => .ok (negated e, .tail t after r)
    | .mark .plus =>
      match readUnary after with
      | .error e => .error e
      | .ok (e, r) => .ok (e, .tail t after r)
    | _ => readUnsigned (t :: after)
termination_by 8 * ts.length + 2
decreasing_by
  all_goals
    simp only [List.length_cons, List.length_nil]
    omega

/-- Reads an operand without a sign: a literal, a sum in brackets, a call, or a column, perhaps
behind the name of its table. -/
def readUnsigned (ts : List Token) : Reading Expr ts :=
  match ts with
  | [] => .error (.complaint none (.unexpected (textAt [])))
  | t :: after =>
    match t.kind with
    | .mark .leftParen =>
      match readSum after with
      | .error e => .error e
      | .ok (e, r) =>
        match Reader.mark .rightParen r.1 with
        | .error e => .error e
        | .ok (_, s) => .ok (e, .tail t after (r.trans s))
    | .number x => .ok (.literal (.number x), .tail t after (.whole after))
    | .string _ content => .ok (.literal (.text content), .tail t after (.whole after))
    | .keyword .NULL => .ok (.literal .null, .tail t after (.whole after))
    | _ =>
      match t.name? with
      | none => .error (.complaint t (.unexpected t.text))
      | some name =>
        match after with
        | [] => .ok (.column ⟨none, name⟩, .tail t [] (.whole []))
        | u :: rest =>
          if u.kind = .mark .leftParen then
            match Function.ofName? name with
            | none => .error (.complaint u (.unknownFunction name))
            | some f =>
              match readSumArguments f rest with
              | .error e => .error e
              | .ok (call, r) => .ok (call, .tail t _ (.tail u rest r))
          else if u.kind = .mark .dot then
            match Reader.identifier rest with
            | .error e => .error e
            | .ok (column, r) =>
              .ok (.column ⟨some (Text.lower name), column⟩, .tail t _ (.tail u rest r))
          else .ok (.column ⟨none, name⟩, .tail t _ (.whole _))
termination_by 8 * ts.length + 1
decreasing_by
  all_goals
    simp only [List.length_cons]
    omega

/-- Reads the arguments of a call, which are sums, up to and with the closing bracket. -/
def readSumArguments (f : Function) (ts : List Token) : Reading Expr ts :=
  match readDistinct f ts with
  | (distinct, start) =>
    match readSumArgumentList f start.1 with
    | .error e => .error e
    | .ok (es, r) =>
      match Reader.mark .rightParen r.1 with
      | .error e => .error e
      | .ok (_, s) =>
        match callOf f distinct es with
        | .error e => .error e
        | .ok call => .ok (call, start.trans (r.trans s))
termination_by 8 * ts.length + 7
decreasing_by
  have := start.length_le
  omega

/-- Reads what stands between the brackets of a call: a star, nothing, or sums. -/
def readSumArgumentList (f : Function) (ts : List Token) : Reading (List Expr) ts :=
  match ts with
  | [] => readSums []
  | t :: after =>
    if t.kind = .mark .star then
      if f = .count then .ok ([.star], .tail t after (.whole after))
      else .error (.complaint t (.starNotSupported f))
    else if t.kind = .mark .rightParen then .ok ([], .whole _)
    else readSums (t :: after)
termination_by 8 * ts.length + 6

/-- Reads one or more sums with commas between them. -/
def readSums (ts : List Token) : Reading (List Expr) ts :=
  match readSum ts with
  | .error e => .error e
  | .ok (e, r) =>
    match hr : r.1 with
    | [] => .ok ([e], r)
    | t :: after =>
      if t.kind = .mark .comma then
        match readSums after with
        | .error e => .error e
        | .ok (es, s) =>
          .ok (e :: es, ⟨s.1, (s.2.trans (List.suffix_cons t after)).trans (hr ▸ r.2)⟩)
      else .ok ([e], r)
termination_by 8 * ts.length + 5
decreasing_by
  · omega
  · have := r.length_le
    rw [hr] at this
    simp only [List.length_cons] at this
    omega

end

end SqlEngine.Grammar
