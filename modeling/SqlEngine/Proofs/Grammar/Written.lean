import SqlEngine.Grammar.Expr

/-!
# Tokens that write an expression

An expression is written with brackets around every operator and its two sides, and without any
other brackets than those of calls. Numbers below zero are written behind a minus sign. Nothing is
said about the spelling of names, about the quotes of strings and about white space.
-/
namespace SqlEngine.Grammar

/-- A token that gives a name where an expression begins. A string is a literal there, whatever
quotes it stands in. -/
def IsName (t : Token) (name : String) : Prop :=
  t.name? = some name ∧ ∀ quote content, t.kind ≠ .string quote content

/-- The tokens are the word if the flag is set, and none otherwise. -/
inductive Optionally (word : Keyword) : Bool → List Token → Prop where
  | absent : Optionally word false []
  | present {t : Token} (ht : t.kind = .keyword word) : Optionally word true [t]

/-- A part of a text that tokens can write: an expression, expressions with commas between them, or
the arguments of a call. -/
inductive Phrase where
  | expr (e : Expr)
  | items (es : List Expr)
  | arguments (f : Function) (es : List Expr)

/-- The tokens write the phrase. -/
inductive Phrase.Written : Phrase → List Token → Prop where
  | number {t : Token} {x : Float} (ht : t.kind = .number x) :
      Written (.expr (.literal (.number x))) [t]
  | text {t : Token} {quote : Char} {content : String} (ht : t.kind = .string quote content) :
      Written (.expr (.literal (.text content))) [t]
  | null {t : Token} (ht : t.kind = .keyword .NULL) : Written (.expr (.literal .null)) [t]
  | column {t : Token} {name : String} (ht : IsName t name) :
      Written (.expr (.column ⟨none, name⟩)) [t]
  | qualified {t d u : Token} {table name : String} (ht : IsName t table)
      (hd : d.kind = .mark .dot) (hu : u.name? = some name) :
      Written (.expr (.column ⟨some (Text.lower table), name⟩)) [t, d, u]
  | negated {t : Token} {e : Expr} {ts : List Token} (ht : t.kind = .mark .minus)
      (he : Written (.expr e) ts) : Written (.expr (negated e)) (t :: ts)
  | binary {l o r : Token} {op : Operator} {left right : Expr} {ts us : List Token}
      (hl : l.kind = .mark .leftParen) (hleft : Written (.expr left) ts)
      (ho : operator? o.kind = some op) (hright : Written (.expr right) us)
      (hr : r.kind = .mark .rightParen) :
      Written (.expr (.binary op left right)) (l :: ts ++ o :: us ++ [r])
  | call {t l r : Token} {name : String} {f : Function} {distinct : Bool} {es : List Expr}
      {ds ts : List Token} (ht : IsName t name) (hf : Function.ofName? name = some f)
      (hl : l.kind = .mark .leftParen) (hdistinct : distinct = true → f = .count)
      (hds : Optionally .DISTINCT distinct ds) (hes : Written (.arguments f es) ts)
      (htakes : f.takes es.length = true) (hr : r.kind = .mark .rightParen) :
      Written (.expr (.call f distinct es)) (t :: l :: ds ++ ts ++ [r])
  | star {t : Token} (ht : t.kind = .mark .star) : Written (.arguments .count [.star]) [t]
  | plain {f : Function} {es : List Expr} {ts : List Token} (hes : Written (.items es) ts) :
      Written (.arguments f es) ts
  | single {e : Expr} {ts : List Token} (he : Written (.expr e) ts) : Written (.items [e]) ts
  | more {t : Token} {e : Expr} {es : List Expr} {ts us : List Token} (he : Written (.expr e) ts)
      (ht : t.kind = .mark .comma) (hes : Written (.items es) us) :
      Written (.items (e :: es)) (ts ++ t :: us)

/-- A kind of token with which an expression can begin. -/
def startsExpr : TokenKind → Bool
  | .mark .minus | .mark .leftParen => true
  | .mark _ => false
  | .keyword word => word = .NULL || word.isNonReserved
  | _ => true

theorem IsName.startsExpr {t : Token} {name : String} (h : IsName t name) :
    startsExpr t.kind = true := by
  obtain ⟨hname, -⟩ := h
  rw [Token.name?] at hname
  cases hk : t.kind with
  | keyword word =>
    rw [hk] at hname
    simp only [Option.ite_none_right_eq_some] at hname
    simp [Grammar.startsExpr, hname.1]
  | mark m =>
    rw [hk] at hname
    cases hname
  | number x => rfl
  | string quote content => rfl
  | identifier name => rfl

theorem IsName.ne_leftParen {t : Token} {name : String} (h : IsName t name) :
    t.kind ≠ .mark .leftParen := by
  intro hk
  have hname := h.1
  rw [Token.name?, hk] at hname
  cases hname

/-- A written expression begins with a token with which one can begin. -/
theorem Phrase.Written.head {e : Expr} {ts : List Token} (h : Written (.expr e) ts) :
    ∃ t rest, ts = t :: rest ∧ startsExpr t.kind = true := by
  cases h with
  | number ht | text ht | null ht => exact ⟨_, _, rfl, by rw [ht]; rfl⟩
  | column ht | qualified ht _ _ | call ht => exact ⟨_, _, rfl, ht.startsExpr⟩
  | negated ht _ => exact ⟨_, _, rfl, by rw [ht]; rfl⟩
  | binary hl _ _ _ _ => exact ⟨_, _, rfl, by rw [hl]; rfl⟩

theorem Phrase.Written.items_head {es : List Expr} {ts : List Token} (h : Written (.items es) ts) :
    ∃ t rest, ts = t :: rest ∧ startsExpr t.kind = true := by
  cases h with
  | single he => exact he.head
  | more he _ _ =>
    obtain ⟨t, rest, rfl, ht⟩ := he.head
    exact ⟨t, _, rfl, ht⟩

theorem Phrase.Written.arguments_head {f : Function} {es : List Expr} {ts : List Token}
    (h : Written (.arguments f es) ts) :
    ∃ t rest, ts = t :: rest ∧ t.kind ≠ .keyword .DISTINCT := by
  cases h with
  | star ht => exact ⟨_, _, rfl, by rw [ht]; simp⟩
  | plain hes =>
    obtain ⟨t, rest, rfl, ht⟩ := hes.items_head
    refine ⟨t, rest, rfl, ?_⟩
    intro hdistinct
    rw [hdistinct] at ht
    cases ht

end SqlEngine.Grammar
