import SqlEngine.Proofs.Grammar.Reads
import SqlEngine.Proofs.Grammar.Written

/-!
# Reading back expressions

Each reader of expressions is described by what it reads when the readers it calls read something.
An expression that is written with brackets is an operand, so it is read whole whatever operators
stand around it; what follows it must only not look like the rest of a name or of a call.
-/
namespace SqlEngine.Grammar

/-- A kind of token behind which an operand does not go on. -/
def endsOperand : TokenKind → Bool
  | .mark .leftParen | .mark .dot => false
  | _ => true

/-- A kind of token behind which an expression does not go on. -/
def endsExpr (kind : TokenKind) : Bool := endsOperand kind && (operator? kind).isNone

/-- The tokens begin with one whose kind fulfils the condition, or there are none. -/
def Ahead (p : TokenKind → Bool) (ts : List Token) : Prop := ∀ t ∈ ts.head?, p t.kind = true

theorem ahead_cons {p : TokenKind → Bool} {t : Token} {ts : List Token} {kind : TokenKind}
    (ht : t.kind = kind) (hp : p kind = true) : Ahead p (t :: ts) := by
  intro u hu
  cases hu
  rw [ht]
  exact hp

theorem reads_exprFrom {floor : Nat} {ts mid rest : List Token} {left whole : Expr}
    (hleft : Reads readOperand ts left mid)
    (hwhole : Reads (readOperators floor left) mid whole rest) :
    Reads (readExprFrom floor) ts whole rest := by
  obtain ⟨r, hr, rfl⟩ := hleft
  obtain ⟨s, hs, rfl⟩ := hwhole
  refine ⟨r.trans s, ?_, rfl⟩
  rw [readExprFrom, hr]
  simp only [hs]

/-- An operator that binds less tightly than the floor is left for a reader further out. -/
theorem reads_operators_loose {floor : Nat} {left : Expr} {rest : List Token}
    (hrest : ∀ t ∈ rest.head?, ∀ op, operator? t.kind = some op → op.precedence < floor) :
    Reads (readOperators floor left) rest left rest := by
  cases rest with
  | nil => exact ⟨.whole [], by rw [readOperators], rfl⟩
  | cons t after =>
    refine ⟨.whole _, ?_, rfl⟩
    rw [readOperators]
    split
    · rfl
    · next op hop => rw [if_pos (hrest t rfl op hop)]

theorem reads_operators_stop {floor : Nat} {left : Expr} {rest : List Token}
    (hrest : Ahead endsExpr rest) : Reads (readOperators floor left) rest left rest := by
  refine reads_operators_loose ?_
  intro t ht op hop
  have h := hrest t ht
  rw [endsExpr, hop] at h
  simp at h

theorem reads_operators_step {floor : Nat} {t : Token} {op : Operator} {left right whole : Expr}
    {after mid rest : List Token} (ht : operator? t.kind = some op)
    (hfloor : floor ≤ op.precedence)
    (hright : Reads (readExprFrom (op.precedence + 1)) after right mid)
    (hwhole : Reads (readOperators floor (.binary op left right)) mid whole rest) :
    Reads (readOperators floor left) (t :: after) whole rest := by
  obtain ⟨r, hr, rfl⟩ := hright
  obtain ⟨s, hs, rfl⟩ := hwhole
  refine ⟨.tail t after (r.trans s), ?_, rfl⟩
  rw [readOperators, ht]
  simp only [if_neg (Nat.not_lt.2 hfloor), hr, hs]

theorem endsOperand_of_operator {kind : TokenKind} {op : Operator} (h : operator? kind = some op) :
    endsOperand kind = true := by
  cases kind with
  | mark m =>
    cases m with
    | leftParen | dot => cases h
    | _ => rfl
  | _ => rfl

theorem reads_negated {t : Token} {e : Expr} {after rest : List Token}
    (ht : t.kind = .mark .minus) (he : Reads readOperand after e rest) :
    Reads readOperand (t :: after) (negated e) rest := by
  obtain ⟨r, hr, rfl⟩ := he
  refine ⟨.tail t after r, ?_, rfl⟩
  rw [readOperand, ht]
  simp only [hr]

theorem reads_plus {t : Token} {e : Expr} {after rest : List Token} (ht : t.kind = .mark .plus)
    (he : Reads readOperand after e rest) : Reads readOperand (t :: after) e rest := by
  obtain ⟨r, hr, rfl⟩ := he
  refine ⟨.tail t after r, ?_, rfl⟩
  rw [readOperand, ht]
  simp only [hr]

theorem reads_bracketed {l r : Token} {e : Expr} {after rest : List Token}
    (hl : l.kind = .mark .leftParen) (hr : r.kind = .mark .rightParen)
    (he : Reads (readExprFrom 0) after e (r :: rest)) : Reads readOperand (l :: after) e rest := by
  obtain ⟨s, hs, hrest⟩ := he
  obtain ⟨u, hu, rfl⟩ := hrest ▸ reads_mark hr rest
  refine ⟨.tail l after (s.trans u), ?_, rfl⟩
  rw [readOperand, hl]
  simp only [hs, hu]

theorem reads_number {t : Token} {x : Float} (ht : t.kind = .number x) (rest : List Token) :
    Reads readOperand (t :: rest) (.literal (.number x)) rest :=
  ⟨.tail t rest (.whole rest), by rw [readOperand, ht], rfl⟩

theorem reads_text {t : Token} {quote : Char} {content : String}
    (ht : t.kind = .string quote content) (rest : List Token) :
    Reads readOperand (t :: rest) (.literal (.text content)) rest :=
  ⟨.tail t rest (.whole rest), by rw [readOperand, ht], rfl⟩

theorem reads_null {t : Token} (ht : t.kind = .keyword .NULL) (rest : List Token) :
    Reads readOperand (t :: rest) (.literal .null) rest :=
  ⟨.tail t rest (.whole rest), by rw [readOperand, ht], rfl⟩

/-- Where an operand begins with a name, what follows the name decides what it is a name of. -/
theorem readOperand_of_isName {t : Token} {name : String} (ht : IsName t name)
    (after : List Token) :
    readOperand (t :: after) =
      match after with
      | [] => .ok (.column ⟨none, name⟩, .tail t [] (.whole []))
      | u :: rest =>
        if u.kind = .mark .leftParen then
          match Function.ofName? name with
          | none => .error (.complaint u (.unknownFunction name))
          | some f =>
            match readArguments f rest with
            | .error e => .error e
            | .ok (call, r) => .ok (call, .tail t _ (.tail u rest r))
        else if u.kind = .mark .dot then
          match Reader.identifier rest with
          | .error e => .error e
          | .ok (column, r) =>
            .ok (.column ⟨some (Text.lower name), column⟩, .tail t _ (.tail u rest r))
        else .ok (.column ⟨none, name⟩, .tail t _ (.whole _)) := by
  obtain ⟨hname, hstring⟩ := ht
  rw [readOperand]
  split
  case h_7 =>
    generalize t.name? = found at hname ⊢
    subst hname
    rfl
  -- A token of any of the other kinds gives no name, or it is a string.
  all_goals simp_all [Token.name?, Keyword.isNonReserved]

/-- A name that stands alone is a column. -/
theorem reads_column {t : Token} {name : String} {rest : List Token} (ht : IsName t name)
    (hrest : Ahead endsOperand rest) :
    Reads readOperand (t :: rest) (.column ⟨none, name⟩) rest := by
  refine ⟨.tail t rest (.whole rest), ?_, rfl⟩
  rw [readOperand_of_isName ht]
  cases rest with
  | nil => rfl
  | cons u rest =>
    have hu := hrest u rfl
    have hcall : u.kind ≠ .mark .leftParen := by
      intro h
      rw [h] at hu
      cases hu
    have hpoint : u.kind ≠ .mark .dot := by
      intro h
      rw [h] at hu
      cases hu
    simp only [if_neg hcall, if_neg hpoint]

theorem reads_identifier {t : Token} {name : String} (ht : t.name? = some name)
    (rest : List Token) : Reads Reader.identifier (t :: rest) name rest :=
  ⟨.tail t rest (.whole rest), by rw [Reader.identifier, ht], rfl⟩

theorem reads_qualified {t d u : Token} {table name : String} (ht : IsName t table)
    (hd : d.kind = .mark .dot) (hu : u.name? = some name) (rest : List Token) :
    Reads readOperand (t :: d :: u :: rest) (.column ⟨some (Text.lower table), name⟩) rest := by
  obtain ⟨r, hr, hrest⟩ := reads_identifier hu rest
  refine ⟨.tail t _ (.tail d _ r), ?_, hrest⟩
  have hcall : d.kind ≠ .mark .leftParen := by
    rw [hd]
    decide
  rw [readOperand_of_isName ht]
  simp only [if_neg hcall, if_pos hd, hr]

theorem reads_call {t l : Token} {name : String} {f : Function} {call : Expr}
    {after rest : List Token} (ht : IsName t name) (hf : Function.ofName? name = some f)
    (hl : l.kind = .mark .leftParen) (hcall : Reads (readArguments f) after call rest) :
    Reads readOperand (t :: l :: after) call rest := by
  obtain ⟨r, hr, rfl⟩ := hcall
  refine ⟨.tail t _ (.tail l after r), ?_, rfl⟩
  rw [readOperand_of_isName ht]
  simp only [if_pos hl, hf, hr]

theorem readDistinct_of_optionally {f : Function} {distinct : Bool} {ds ts : List Token}
    (hdistinct : distinct = true → f = .count) (hds : Optionally .DISTINCT distinct ds)
    (hhead : ∀ t ∈ ts.head?, t.kind ≠ .keyword .DISTINCT) :
    ∃ start : Rest (ds ++ ts), readDistinct f (ds ++ ts) = (distinct, start) ∧ start.1 = ts := by
  cases hds with
  | absent =>
    refine ⟨.whole ts, ?_, rfl⟩
    cases ts with
    | nil => rfl
    | cons t after => simp [readDistinct, hhead t rfl]
  | @present t ht =>
    refine ⟨.tail t ts (.whole ts), ?_, rfl⟩
    simp [readDistinct, hdistinct rfl, ht]

/-- The arguments of a call are read behind the word DISTINCT, if it stands there. -/
theorem reads_arguments {f : Function} {distinct : Bool} {es : List Expr} {r : Token}
    {ds ts rest : List Token} (hdistinct : distinct = true → f = .count)
    (hds : Optionally .DISTINCT distinct ds)
    (hhead : ∀ t ∈ ts.head?, t.kind ≠ .keyword .DISTINCT)
    (hes : Reads (readArgumentList f) ts es (r :: rest)) (htakes : f.takes es.length = true)
    (hr : r.kind = .mark .rightParen) :
    Reads (readArguments f) (ds ++ ts) (.call f distinct es) rest := by
  obtain ⟨start, hstart, hval⟩ := readDistinct_of_optionally hdistinct hds hhead
  rw [← hval] at hes
  obtain ⟨s, hs, hrest⟩ := hes
  obtain ⟨u, hu, rfl⟩ := hrest ▸ reads_mark hr rest
  have hcall : callOf f distinct es = .ok (.call f distinct es) := if_pos htakes
  refine ⟨start.trans (s.trans u), ?_, rfl⟩
  rw [readArguments, hstart]
  simp only [hs, hu, hcall]

/-- Between the brackets of a call there may be nothing. -/
theorem reads_argumentList_none {f : Function} {t : Token} (ht : t.kind = .mark .rightParen)
    (rest : List Token) : Reads (readArgumentList f) (t :: rest) [] (t :: rest) := by
  have hstar : t.kind ≠ .mark .star := by
    rw [ht]
    decide
  exact ⟨.whole _, by rw [readArgumentList, if_neg hstar, if_pos ht], rfl⟩

theorem reads_star {t : Token} (ht : t.kind = .mark .star) (rest : List Token) :
    Reads (readArgumentList .count) (t :: rest) [.star] rest :=
  ⟨.tail t rest (.whole rest), by rw [readArgumentList, if_pos ht, if_pos rfl], rfl⟩

theorem reads_argumentList {f : Function} {ts rest : List Token} {es : List Expr}
    (hhead : ∀ t ∈ ts.head?, t.kind ≠ .mark .star ∧ t.kind ≠ .mark .rightParen)
    (hes : Reads readExprs ts es rest) : Reads (readArgumentList f) ts es rest := by
  obtain ⟨r, hr, rfl⟩ := hes
  refine ⟨r, ?_, rfl⟩
  cases ts with
  | nil => rw [readArgumentList, hr]
  | cons t after =>
    obtain ⟨hstar, hclose⟩ := hhead t rfl
    rw [readArgumentList, if_neg hstar, if_neg hclose, hr]

theorem reads_single {e : Expr} {ts rest : List Token}
    (hrest : ∀ t ∈ rest.head?, t.kind ≠ .mark .comma) (he : Reads (readExprFrom 0) ts e rest) :
    Reads readExprs ts [e] rest := by
  obtain ⟨s, hs, rfl⟩ := he
  refine ⟨s, ?_, rfl⟩
  rw [readExprs, hs]
  dsimp only
  split
  · rfl
  · next t after heq =>
    rw [heq] at hrest
    rw [if_neg (hrest t rfl)]

theorem reads_more {e : Expr} {es : List Expr} {t : Token} {ts after rest : List Token}
    (he : Reads (readExprFrom 0) ts e (t :: after)) (ht : t.kind = .mark .comma)
    (hes : Reads readExprs after es rest) : Reads readExprs ts (e :: es) rest := by
  obtain ⟨s, hs, hrest⟩ := he
  obtain ⟨u, hu, rfl⟩ := hes
  refine ⟨⟨u.1, (u.2.trans (List.suffix_cons t after)).trans (hrest ▸ s.2)⟩, ?_, rfl⟩
  rw [readExprs, hs]
  dsimp only
  split
  · next heq =>
    rw [heq] at hrest
    cases hrest
  · next heq =>
    rw [heq] at hrest
    cases hrest
    rw [if_pos ht, hu]

/-- What reading a written phrase comes to, whatever follows it. -/
def Phrase.ReadBack : Phrase → List Token → Prop
  | .expr e, ts => ∀ rest, Ahead endsOperand rest → Reads readOperand (ts ++ rest) e rest
  | .items es, ts => ∀ r rest, r.kind = .mark .rightParen →
    Reads readExprs (ts ++ r :: rest) es (r :: rest)
  | .arguments f es, ts => ∀ r rest, r.kind = .mark .rightParen →
    Reads (readArgumentList f) (ts ++ r :: rest) es (r :: rest)

theorem reads_expr_of_operand {floor : Nat} {e : Expr} {ts rest : List Token}
    (h : Phrase.ReadBack (.expr e) ts) (hrest : Ahead endsExpr rest) :
    Reads (readExprFrom floor) (ts ++ rest) e rest := by
  have hend : Ahead endsOperand rest := fun t ht => (Bool.and_eq_true_iff.1 (hrest t ht)).1
  exact reads_exprFrom (h rest hend) (reads_operators_stop hrest)

/-- Up to a closing bracket, an operator is read with its two sides. -/
theorem reads_binary {o r : Token} {op : Operator} {left right : Expr} {ts us rest : List Token}
    (hleft : Phrase.ReadBack (.expr left) ts) (ho : operator? o.kind = some op)
    (hright : Phrase.ReadBack (.expr right) us) (hr : r.kind = .mark .rightParen) :
    Reads (readExprFrom 0) (ts ++ (o :: us ++ r :: rest)) (.binary op left right) (r :: rest) := by
  have hclose : Ahead endsExpr (r :: rest) := ahead_cons hr rfl
  have hop : Ahead endsOperand (o :: us ++ r :: rest) :=
    ahead_cons rfl (endsOperand_of_operator ho)
  have hside : Reads (readExprFrom (op.precedence + 1)) (us ++ r :: rest) right (r :: rest) :=
    reads_expr_of_operand hright hclose
  refine reads_exprFrom (hleft _ hop) ?_
  exact reads_operators_step ho (Nat.zero_le _) hside (reads_operators_stop hclose)

/-- Every written phrase is read back. -/
theorem Phrase.Written.readBack {p : Phrase} {ts : List Token} (h : p.Written ts) :
    p.ReadBack ts := by
  induction h with
  | number ht => exact fun rest _ => reads_number ht rest
  | text ht => exact fun rest _ => reads_text ht rest
  | null ht => exact fun rest _ => reads_null ht rest
  | column ht => exact fun rest hrest => reads_column ht hrest
  | qualified ht hd hu => exact fun rest _ => reads_qualified ht hd hu rest
  | negated ht _ ih => exact fun rest hrest => reads_negated ht (ih rest hrest)
  | @binary l o r op left right ts us hl _ ho _ hr ihleft ihright =>
    intro rest _
    have hinner : Reads (readExprFrom 0) (ts ++ (o :: us ++ r :: rest)) (.binary op left right)
        (r :: rest) := reads_binary ihleft ho ihright hr
    simpa using reads_bracketed hl hr hinner
  | @call t l r name f distinct es ds ts ht hf hl hdistinct hds hes htakes hr ih =>
    intro rest _
    have hhead : ∀ u ∈ (ts ++ r :: rest).head?, u.kind ≠ .keyword .DISTINCT := by
      obtain ⟨u, after, rfl, hu⟩ := hes.arguments_head
      intro v hv
      cases hv
      exact hu
    have h := reads_call ht hf hl (reads_arguments hdistinct hds hhead (ih r rest hr) htakes hr)
    simpa using h
  | star ht => exact fun r rest _ => reads_star ht _
  | plain hes ih =>
    intro r rest hr
    refine reads_argumentList ?_ (ih r rest hr)
    obtain ⟨t, after, rfl, ht⟩ := hes.items_head
    rintro u ⟨⟩
    constructor
    · intro h
      rw [h] at ht
      cases ht
    · intro h
      rw [h] at ht
      cases ht
  | single _ ih =>
    intro r rest hr
    have hcomma : ∀ t ∈ (r :: rest).head?, t.kind ≠ .mark .comma := by
      rintro t ⟨⟩
      rw [hr]
      decide
    exact reads_single hcomma (reads_expr_of_operand ih (ahead_cons hr rfl))
  | @more t e es ts us _ ht _ ihe ihes =>
    intro r rest hr
    have he : Reads (readExprFrom 0) (ts ++ t :: (us ++ r :: rest)) e (t :: (us ++ r :: rest)) :=
      reads_expr_of_operand ihe (ahead_cons ht rfl)
    have h := reads_more he ht (ihes r rest hr)
    simpa using h

end SqlEngine.Grammar
