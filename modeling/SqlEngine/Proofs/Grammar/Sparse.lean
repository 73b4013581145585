import SqlEngine.Proofs.Computation
import SqlEngine.Proofs.Grammar.Climbing
import SqlEngine.Proofs.Grammar.ReadBack
import SqlEngine.Proofs.Grammar.Writable
import SqlEngine.Token.Lexer

/-!
# Expressions with no more brackets than needed

Each part of an expression stands in a layer of the grammar, and it needs brackets only if it is an
operator that the layer has no place for: a sum within a product, or a sum or a product within an
operand. The right side of an operator stands one layer further in than its left side. Written in
this way every expression is read back, whether an operator of the same layer or of one further out
goes on behind it.
-/
namespace SqlEngine.Grammar

/-- The layers of the grammar, from the outermost to the innermost. -/
inductive Layer where
  | sum | product | operand
deriving DecidableEq

/-- The layer has a place for the operator without brackets. -/
def Layer.takes : Layer → Operator → Bool
  | .sum, _ => true
  | .product, .mul | .product, .div => true
  | .product, .add | .product, .sub => false
  | .operand, _ => false

/-- The tokens write the phrase in the layer with no more brackets than needed. -/
inductive Phrase.Sparse : Layer → Phrase → List Token → Prop where
  | number {layer : Layer} {t : Token} {x : Float} (ht : t.kind = .number x) :
      Sparse layer (.expr (.literal (.number x))) [t]
  | text {layer : Layer} {t : Token} {quote : Char} {content : String}
      (ht : t.kind = .string quote content) : Sparse layer (.expr (.literal (.text content))) [t]
  | null {layer : Layer} {t : Token} (ht : t.kind = .keyword .NULL) :
      Sparse layer (.expr (.literal .null)) [t]
  | column {layer : Layer} {t : Token} {name : String} (ht : IsName t name) :
      Sparse layer (.expr (.column ⟨none, name⟩)) [t]
  | qualified {layer : Layer} {t d u : Token} {table name : String} (ht : IsName t table)
      (hd : d.kind = .mark .dot) (hu : u.name? = some name) :
      Sparse layer (.expr (.column ⟨some (Text.lower table), name⟩)) [t, d, u]
  | negated {layer : Layer} {t : Token} {e : Expr} {ts : List Token} (ht : t.kind = .mark .minus)
      (he : Sparse .operand (.expr e) ts) : Sparse layer (.expr (negated e)) (t :: ts)
  | sum {o : Token} {op : Operator} {left right : Expr} {ts us : List Token}
      (hleft : Sparse .sum (.expr left) ts) (ho : additive? o.kind = some op)
      (hright : Sparse .product (.expr right) us) :
      Sparse .sum (.expr (.binary op left right)) (ts ++ o :: us)
  | product {layer : Layer} {o : Token} {op : Operator} {left right : Expr} {ts us : List Token}
      (hlayer : layer ≠ .operand) (hleft : Sparse .product (.expr left) ts)
      (ho : multiplicative? o.kind = some op) (hright : Sparse .operand (.expr right) us) :
      Sparse layer (.expr (.binary op left right)) (ts ++ o :: us)
  | bracketed {layer : Layer} {l r : Token} {op : Operator} {left right : Expr} {ts : List Token}
      (hneeded : layer.takes op = false) (hl : l.kind = .mark .leftParen)
      (he : Sparse .sum (.expr (.binary op left right)) ts) (hr : r.kind = .mark .rightParen) :
      Sparse layer (.expr (.binary op left right)) (l :: ts ++ [r])
  | call {layer : Layer} {t l r : Token} {name : String} {f : Function} {distinct : Bool}
      {es : List Expr} {ds ts : List Token} (ht : IsName t name)
      (hf : Function.ofName? name = some f) (hl : l.kind = .mark .leftParen)
      (hdistinct : distinct = true → f = .count) (hds : Optionally .DISTINCT distinct ds)
      (hes : Sparse .sum (.arguments f es) ts) (htakes : f.takes es.length = true)
      (hr : r.kind = .mark .rightParen) :
      Sparse layer (.expr (.call f distinct es)) (t :: l :: ds ++ ts ++ [r])
  | star {t : Token} (ht : t.kind = .mark .star) : Sparse .sum (.arguments .count [.star]) [t]
  | plain {f : Function} {es : List Expr} {ts : List Token} (hes : Sparse .sum (.items es) ts) :
      Sparse .sum (.arguments f es) ts
  | single {e : Expr} {ts : List Token} (he : Sparse .sum (.expr e) ts) :
      Sparse .sum (.items [e]) ts
  | more {t : Token} {e : Expr} {es : List Expr} {ts us : List Token}
      (he : Sparse .sum (.expr e) ts) (ht : t.kind = .mark .comma)
      (hes : Sparse .sum (.items es) us) : Sparse .sum (.items (e :: es)) (ts ++ t :: us)

/-- A kind of token with which the phrase can begin. -/
def Phrase.begins : Phrase → TokenKind → Bool
  | .expr _, kind | .items _, kind => startsExpr kind
  | .arguments _ _, kind => startsExpr kind || kind = .mark .star

theorem Phrase.Sparse.head {layer : Layer} {p : Phrase} {ts : List Token} (h : Sparse layer p ts) :
    ∃ t rest, ts = t :: rest ∧ p.begins t.kind = true := by
  induction h with
  | number ht | text ht | null ht => exact ⟨_, _, rfl, by rw [ht]; rfl⟩
  | column ht | qualified ht _ _ | call ht => exact ⟨_, _, rfl, ht.startsExpr⟩
  | negated ht _ => exact ⟨_, _, rfl, by rw [ht]; rfl⟩
  | sum _ _ _ ih | product _ _ _ _ ih | more _ _ _ ih =>
    obtain ⟨t, rest, rfl, ht⟩ := ih
    exact ⟨t, _, rfl, ht⟩
  | bracketed _ hl => exact ⟨_, _, rfl, by rw [hl]; rfl⟩
  | star ht => exact ⟨_, _, rfl, by rw [ht]; rfl⟩
  | plain _ ih =>
    obtain ⟨t, rest, rfl, ht⟩ := ih
    exact ⟨t, _, rfl, by rw [begins, show startsExpr t.kind = true from ht]; rfl⟩
  | single _ ih => exact ih

/-- How tightly the operators of a layer bind. -/
def Layer.floor : Layer → Nat
  | .sum => 4
  | .product => 5
  | .operand => 6

/-- What reading a phrase of the layer comes to: an expression is read as far as `rest`, and the
operators there go on with it. -/
def Phrase.ReadOn (layer : Layer) : Phrase → List Token → Prop
  | .expr e, ts => ∀ floor ≤ layer.floor, ∀ rest whole final, Ahead endsOperand rest →
    (∀ t ∈ rest.head?, ∀ op, operator? t.kind = some op → op.precedence ≤ layer.floor) →
      Reads (readOperators floor e) rest whole final →
        Reads (readExprFrom floor) (ts ++ rest) whole final
  | .items es, ts => ∀ r rest, r.kind = .mark .rightParen →
    Reads readExprs (ts ++ r :: rest) es (r :: rest)
  | .arguments f es, ts => ∀ r rest, r.kind = .mark .rightParen →
    Reads (readArgumentList f) (ts ++ r :: rest) es (r :: rest)

theorem readOn_of_operand {layer : Layer} {e : Expr} {ts : List Token}
    (h : ∀ rest, Ahead endsOperand rest → Reads readOperand (ts ++ rest) e rest) :
    Phrase.ReadOn layer (.expr e) ts :=
  fun _ _ rest _ _ hrest _ hwhole => reads_exprFrom (h rest hrest) hwhole

/-- Up to an operator that binds less tightly than the floor, the expression is read whole. -/
theorem reads_of_readOn {layer : Layer} {floor : Nat} {e : Expr} {ts rest : List Token}
    (h : Phrase.ReadOn layer (.expr e) ts) (hfloor : floor ≤ layer.floor)
    (hrest : Ahead endsOperand rest)
    (hloose : ∀ t ∈ rest.head?, ∀ op, operator? t.kind = some op → op.precedence < floor) :
    Reads (readExprFrom floor) (ts ++ rest) e rest := by
  refine h floor hfloor rest e rest hrest ?_ (reads_operators_loose hloose)
  intro t ht op hop
  exact Nat.le_trans (Nat.le_of_lt (hloose t ht op hop)) hfloor

theorem reads_of_readOn_ends {layer : Layer} {e : Expr} {ts rest : List Token}
    (h : Phrase.ReadOn layer (.expr e) ts) (hrest : Ahead endsExpr rest) :
    Reads (readExprFrom 0) (ts ++ rest) e rest := by
  refine reads_of_readOn h (Nat.zero_le _) (fun t ht => (Bool.and_eq_true_iff.1 (hrest t ht)).1) ?_
  intro t ht op hop
  have hends := hrest t ht
  rw [endsExpr, hop] at hends
  simp at hends

theorem operator?_of_additive? {kind : TokenKind} {op : Operator} (h : additive? kind = some op) :
    operator? kind = some op ∧ op.precedence = 4 := by
  rcases operator?_cases kind with ⟨op', hop, hadd, -, hprec⟩ | ⟨_, -, hadd, -⟩ | ⟨-, hadd, -⟩
  · rw [hadd] at h
    cases h
    exact ⟨hop, hprec⟩
  · rw [hadd] at h
    cases h
  · rw [hadd] at h
    cases h

theorem operator?_of_multiplicative? {kind : TokenKind} {op : Operator}
    (h : multiplicative? kind = some op) : operator? kind = some op ∧ op.precedence = 5 := by
  rcases operator?_cases kind with ⟨_, -, -, hmul, -⟩ | ⟨op', hop, -, hmul, hprec⟩ | ⟨-, -, hmul⟩
  · rw [hmul] at h
    cases h
  · rw [hmul] at h
    cases h
    exact ⟨hop, hprec⟩
  · rw [hmul] at h
    cases h

/-- An operator goes on with its left side where the layer of the left side allows it, and its right
side ends where no operator binds as tightly as that side. -/
theorem readOn_binary {layer inner outer : Layer} {o : Token} {op : Operator} {left right : Expr}
    {ts us : List Token} (hleft : Phrase.ReadOn inner (.expr left) ts)
    (ho : operator? o.kind = some op) (hright : Phrase.ReadOn outer (.expr right) us)
    (hinner : op.precedence = inner.floor) (houter : outer.floor = op.precedence + 1)
    (hlayer : layer.floor ≤ inner.floor) :
    Phrase.ReadOn layer (.expr (.binary op left right)) (ts ++ o :: us) := by
  intro floor hfloor rest whole final hrest hloose hwhole
  have hfloor' : floor ≤ inner.floor := Nat.le_trans hfloor hlayer
  have hside : Reads (readExprFrom (op.precedence + 1)) (us ++ rest) right rest := by
    refine reads_of_readOn hright (Nat.le_of_eq houter.symm) hrest ?_
    intro t ht op' hop'
    have hle := hloose t ht op' hop'
    omega
  have hoperators : Reads (readOperators floor left) (o :: (us ++ rest)) whole final :=
    reads_operators_step ho (hinner ▸ hfloor') hside hwhole
  rw [List.append_assoc, List.cons_append]
  refine hleft floor hfloor' _ _ _ (ahead_cons rfl (endsOperand_of_operator ho)) ?_ hoperators
  rintro t ⟨⟩ op' hop'
  rw [ho] at hop'
  cases hop'
  exact Nat.le_of_eq hinner

/-- Every phrase that is written with no more brackets than needed is read back. -/
theorem Phrase.Sparse.readOn {layer : Layer} {p : Phrase} {ts : List Token}
    (h : Sparse layer p ts) : p.ReadOn layer ts := by
  induction h with
  | number ht => exact readOn_of_operand fun rest _ => reads_number ht rest
  | text ht => exact readOn_of_operand fun rest _ => reads_text ht rest
  | null ht => exact readOn_of_operand fun rest _ => reads_null ht rest
  | column ht => exact readOn_of_operand fun rest hrest => reads_column ht hrest
  | qualified ht hd hu => exact readOn_of_operand fun rest _ => reads_qualified ht hd hu rest
  | negated ht _ ih =>
    refine readOn_of_operand fun rest hrest => reads_negated ht ?_
    have hoperand : Reads (readExprFrom 6) _ _ rest :=
      reads_of_readOn ih (Nat.le_refl 6) hrest fun t _ op hop => precedence_lt hop
    exact hoperand.congr (readExprFrom_six _).symm
  | sum _ ho _ ihleft ihright =>
    obtain ⟨hop, hprec⟩ := operator?_of_additive? ho
    exact readOn_binary ihleft hop ihright hprec (by rw [hprec]; rfl) (Nat.le_refl _)
  | @product layer _ _ _ _ _ _ hlayer _ ho _ ihleft ihright =>
    obtain ⟨hop, hprec⟩ := operator?_of_multiplicative? ho
    have hfloor : layer.floor ≤ 5 := by
      cases layer with
      | sum | product => decide
      | operand => exact absurd rfl hlayer
    exact readOn_binary ihleft hop ihright hprec (by rw [hprec]; rfl) hfloor
  | bracketed _ hl _ hr ih =>
    refine readOn_of_operand fun rest _ => ?_
    have hends : Ahead endsExpr (_ :: rest) := ahead_cons hr rfl
    simpa using reads_bracketed hl hr (reads_of_readOn_ends ih hends)
  | @call layer t l r name f distinct es ds ts ht hf hl hdistinct hds hes htakes hr ih =>
    refine readOn_of_operand fun rest _ => ?_
    have hhead : ∀ u ∈ (ts ++ r :: rest).head?, u.kind ≠ .keyword .DISTINCT := by
      obtain ⟨u, after, rfl, hu⟩ := hes.head
      rintro v ⟨⟩ hdistinct
      rw [hdistinct] at hu
      cases hu
    have h := reads_call ht hf hl (reads_arguments hdistinct hds hhead (ih r rest hr) htakes hr)
    simpa using h
  | star ht => exact fun r rest _ => reads_star ht _
  | plain hes ih =>
    intro r rest hr
    refine reads_argumentList ?_ (ih r rest hr)
    obtain ⟨t, after, rfl, ht⟩ := hes.head
    rintro u ⟨⟩
    constructor
    · intro h
      rw [h] at ht
      cases ht
    · intro h
      rw [h] at ht
      cases ht
  | single _ ih =>
    intro r rest hr
    have hcomma : ∀ t ∈ (r :: rest).head?, t.kind ≠ .mark .comma := by
      rintro t ⟨⟩
      rw [hr]
      decide
    exact reads_single hcomma (reads_of_readOn_ends ih (ahead_cons hr rfl))
  | @more t e es ts us _ ht _ ihe ihes =>
    intro r rest hr
    have he : Reads (readExprFrom 0) (ts ++ t :: (us ++ r :: rest)) e (t :: (us ++ r :: rest)) :=
      reads_of_readOn_ends ihe (ahead_cons ht rfl)
    have h := reads_more he ht (ihes r rest hr)
    simpa using h

/-- A layer without a place for the operator holds it in brackets. -/
theorem exists_sparse_binary {t : Token} {op : Operator} {left right : Expr}
    (ht : operator? t.kind = some op) (hleft : ∀ layer, ∃ ts, Phrase.Sparse layer (.expr left) ts)
    (hright : ∀ layer, ∃ ts, Phrase.Sparse layer (.expr right) ts) (layer : Layer) :
    ∃ ts, Phrase.Sparse layer (.expr (.binary op left right)) ts := by
  have hsum : ∃ ts, Phrase.Sparse .sum (.expr (.binary op left right)) ts ∧
      (op.precedence = 5 → Phrase.Sparse .product (.expr (.binary op left right)) ts) := by
    rcases operator?_cases t.kind with ⟨_, hop, hadd, -, hprec⟩ | ⟨_, hop, -, hmul, -⟩ | ⟨hop, -⟩
    · rw [ht] at hop
      cases hop
      obtain ⟨ts, hts⟩ := hleft .sum
      obtain ⟨us, hus⟩ := hright .product
      refine ⟨_, .sum hts hadd hus, fun hproduct => ?_⟩
      rw [hprec] at hproduct
      cases hproduct
    · rw [ht] at hop
      cases hop
      obtain ⟨ts, hts⟩ := hleft .product
      obtain ⟨us, hus⟩ := hright .operand
      exact ⟨_, .product (by decide) hts hmul hus, fun _ => .product (by decide) hts hmul hus⟩
    · rw [ht] at hop
      cases hop
  obtain ⟨ts, hts, hproduct⟩ := hsum
  have hbrackets : layer.takes op = false →
      ∃ us, Phrase.Sparse layer (.expr (.binary op left right)) us := fun hneeded =>
    ⟨tokenOf (.mark .leftParen) :: ts ++ [tokenOf (.mark .rightParen)],
      .bracketed hneeded rfl hts rfl⟩
  cases layer with
  | sum => exact ⟨ts, hts⟩
  | product =>
    cases op with
    | add | sub => exact hbrackets rfl
    | mul | div => exact ⟨ts, hproduct rfl⟩
  | operand => exact hbrackets rfl

/-- Every written expression can be written with no more brackets than its layer needs. -/
theorem Phrase.Written.sparse {p : Phrase} {ts : List Token} (h : p.Written ts) :
    match p with
    | .expr e => ∀ layer, ∃ us, Sparse layer (.expr e) us
    | .items es => ∃ us, Sparse .sum (.items es) us
    | .arguments f es => ∃ us, Sparse .sum (.arguments f es) us := by
  induction h with
  | number ht => exact fun layer => ⟨_, .number ht⟩
  | text ht => exact fun layer => ⟨_, .text ht⟩
  | null ht => exact fun layer => ⟨_, .null ht⟩
  | column ht => exact fun layer => ⟨_, .column ht⟩
  | qualified ht hd hu => exact fun layer => ⟨_, .qualified ht hd hu⟩
  | negated ht _ ih =>
    obtain ⟨us, hus⟩ := ih .operand
    exact fun layer => ⟨_, .negated ht hus⟩
  | binary _ _ ho _ _ ihleft ihright => exact exists_sparse_binary ho ihleft ihright
  | call ht hf hl hdistinct hds _ htakes hr ih =>
    obtain ⟨us, hus⟩ := ih
    exact fun layer => ⟨_, .call ht hf hl hdistinct hds hus htakes hr⟩
  | star ht => exact ⟨_, .star ht⟩
  | plain _ ih =>
    obtain ⟨us, hus⟩ := ih
    exact ⟨us, .plain hus⟩
  | single _ ih =>
    obtain ⟨us, hus⟩ := ih .sum
    exact ⟨us, .single hus⟩
  | more _ ht _ ihe ihes =>
    obtain ⟨us, hus⟩ := ihe .sum
    obtain ⟨vs, hvs⟩ := ihes
    exact ⟨_, .more hus ht hvs⟩

/-- The reader of expressions is the reader of sums, and each expression that it returns can be
written with no more brackets than needed; however this is done, it is read back. -/
theorem readExpr_layered :
    (∀ ts, readExpr ts = readSum ts) ∧
      ∀ ts e rest, Reads readExpr ts e rest →
        (∃ us, Phrase.Sparse .sum (.expr e) us) ∧
          ∀ us, Phrase.Sparse .sum (.expr e) us → ∀ after, Ahead endsExpr after →
            Reads readExpr (us ++ after) e after := by
  refine ⟨readExprFrom_eq_readSum, fun ts e rest hread => ⟨?_, fun us hus after hafter => ?_⟩⟩
  · obtain ⟨r, hr, -⟩ := hread
    obtain ⟨us, hus⟩ := writable_of_readExprFrom 0 ts hr
    exact hus.sparse .sum
  · exact reads_of_readOn_ends hus.readOn hafter

/-- A difference of differences, whose brackets group to the right and within a product. -/
theorem readExpr_layered_differences :
    ∃ list e us, Lexer.tokens "a - (b - -1) - c * (d + 2)" = .ok list ∧
      Reads readExpr list.tokens e [] ∧ readExpr list.tokens = readSum list.tokens ∧
      e.canonical = "((a - (b - -1)) - (c * (d + 2)))" ∧ Phrase.Sparse .sum (.expr e) us ∧
      Reads readExpr us e [] := by
  have hread : (Lexer.tokens "a - (b - -1) - c * (d + 2)").toOption.map (fun list =>
      (readExpr list.tokens).toOption.map fun (e, r) => (e.canonical, r.1.length)) =
        some (some ("((a - (b - -1)) - (c * (d + 2)))", 0)) := by
    decide +kernel
  obtain ⟨list, hlist, hexpr⟩ := exists_ok_of_map hread
  obtain ⟨⟨e, r⟩, hr, htext⟩ := exists_ok_of_map hexpr
  obtain ⟨hcanonical, hlength⟩ := Prod.mk.inj htext
  have he : Reads readExpr list.tokens e [] := ⟨r, hr, List.length_eq_zero_iff.1 hlength⟩
  obtain ⟨⟨us, hus⟩, hback⟩ := readExpr_layered.2 list.tokens e [] he
  have hagain : Reads readExpr (us ++ []) e [] := hback us hus [] (by rintro t ⟨⟩)
  rw [List.append_nil] at hagain
  exact ⟨list, e, us, hlist, he, readExpr_layered.1 list.tokens, hcanonical, hus, hagain⟩

end SqlEngine.Grammar
