import SqlEngine.Proofs.Grammar.Reads
import SqlEngine.Proofs.Grammar.Written

/-!
# The forms of what is read

An expression that is read from tokens is built up from forms: literals, columns, a minus sign,
operators and calls. A property that every form has when its parts have it is a property of all
expressions that the reader returns. The induction over the readers is made here once for all such
properties.
-/
namespace SqlEngine.Grammar

/-- The names that the tokens give are of the kind. -/
def Named (N : String → Prop) (ts : List Token) : Prop :=
  ∀ t ∈ ts, ∀ name, t.name? = some name → N name

section Named

variable {N : String → Prop} {ts : List Token}

theorem Named.rest (h : Named N ts) (r : Rest ts) : Named N r.1 := fun t ht => h t (r.2.subset ht)

theorem Named.tail {t : Token} (h : Named N (t :: ts)) : Named N ts := (List.forall_mem_cons.1 h).2

theorem Named.identifier {name : String} {r : Rest ts} (h : Named N ts)
    (hread : Reader.identifier ts = .ok (name, r)) : N name := by
  obtain ⟨t, hts, ht⟩ := Reads.identifier ⟨r, hread, rfl⟩
  have hmem : t ∈ ts := by
    rw [hts]
    exact List.mem_cons_self
  exact h t hmem name ht

end Named

/-- Every form of an expression that is read from tokens with names of the kind has the property, if
its parts have it. -/
structure HeldByForms (N : String → Prop) (P : Expr → Prop) : Prop where
  number : ∀ {t : Token} {x : Float}, t.kind = .number x → P (.literal (.number x))
  text : ∀ {t : Token} {quote : Char} {content : String}, t.kind = .string quote content →
    P (.literal (.text content))
  null : ∀ {t : Token}, t.kind = .keyword .NULL → P (.literal .null)
  column : ∀ {t : Token} {name : String}, IsName t name → N name → P (.column ⟨none, name⟩)
  qualified : ∀ {t d u : Token} {table name : String}, IsName t table → d.kind = .mark .dot →
    u.name? = some name → N name → P (.column ⟨some (Text.lower table), name⟩)
  negated : ∀ {t : Token} {e : Expr}, t.kind = .mark .minus → P e → P (negated e)
  binary : ∀ {t : Token} {op : Operator} {left right : Expr}, operator? t.kind = some op →
    P left → P right → P (.binary op left right)
  call : ∀ {t : Token} {name : String} {f : Function} {distinct : Bool} {es : List Expr},
    IsName t name → Function.ofName? name = some f → (distinct = true → f = .count) →
    (f = .count ∧ es = [.star]) ∨ (∀ e ∈ es, P e) → f.takes es.length = true →
      P (.call f distinct es)

theorem readDistinct_count {f : Function} {ts : List Token} {start : Rest ts}
    (h : readDistinct f ts = (true, start)) : f = .count := by
  rw [readDistinct.eq_def] at h
  split at h
  · cases h
  · split at h
    · next hcount =>
      simp only [Bool.and_eq_true, decide_eq_true_eq] at hcount
      exact hcount.1
    · cases h

namespace HeldByForms

variable {N : String → Prop} {P : Expr → Prop}

mutual

/-- What is read from tokens with names of the kind has every property that its forms hold. -/
theorem of_readExprFrom (hP : HeldByForms N P) (floor : Nat) (ts : List Token) {e : Expr}
    {rest : Rest ts} (hts : Named N ts) (h : readExprFrom floor ts = .ok (e, rest)) : P e := by
  rw [readExprFrom] at h
  split at h
  · cases h
  · next left r hleft =>
    split at h
    · cases h
    · next whole s hwhole =>
      cases h
      have hle := r.length_le
      have hheld := of_readOperand hP ts hts hleft
      exact of_readOperators hP floor left r.1 (hts.rest r) hheld hwhole
termination_by 4 * ts.length + 2

theorem of_readOperators (hP : HeldByForms N P) (floor : Nat) (left : Expr) :
    (ts : List Token) → {e : Expr} → {rest : Rest ts} → Named N ts → P left →
      readOperators floor left ts = .ok (e, rest) → P e
  | [], _, _, _, hleft, h => by
    rw [readOperators] at h
    cases h
    exact hleft
  | t :: after, _, _, hts, hleft, h => by
    rw [readOperators] at h
    split at h
    · cases h
      exact hleft
    · next op hop =>
      split at h
      · cases h
        exact hleft
      · split at h
        · cases h
        · next right r hright =>
          split at h
          · cases h
          · next whole s hwhole =>
            cases h
            have hle := r.length_le
            -- The left side was read from tokens further in front, so its property is carried on.
            have hheld := of_readExprFrom hP (op.precedence + 1) after hts.tail hright
            exact of_readOperators hP floor (.binary op left right) r.1 (hts.tail.rest r)
              (hP.binary hop hleft hheld) hwhole
termination_by ts => 4 * ts.length

theorem of_readOperand (hP : HeldByForms N P) :
    (ts : List Token) → {e : Expr} → {rest : Rest ts} → Named N ts →
      readOperand ts = .ok (e, rest) → P e
  | [], _, _, _, h => by
    rw [readOperand] at h
    cases h
  | t :: after, _, _, hts, h => by
    rw [readOperand] at h
    split at h
    · next hminus =>
      split at h
      · cases h
      · next operand r hoperand =>
        cases h
        exact hP.negated hminus (of_readOperand hP after hts.tail hoperand)
    · split at h
      · cases h
      · next operand r hoperand =>
        cases h
        exact of_readOperand hP after hts.tail hoperand
    · split at h
      · cases h
      · next inner r hinner =>
        split at h
        · cases h
        · cases h
          exact of_readExprFrom hP 0 after hts.tail hinner
    · next hnumber =>
      cases h
      exact hP.number hnumber
    · next htext =>
      cases h
      exact hP.text htext
    · next hnull =>
      cases h
      exact hP.null hnull
    · next hstring _ =>
      split at h
      · cases h
      · next name hname =>
        have ht : IsName t name := ⟨hname, hstring⟩
        have hkind : N name := hts t List.mem_cons_self name hname
        split at h
        · cases h
          exact hP.column ht hkind
        · next u behind _ =>
          split at h
          · split at h
            · cases h
            · next f hf =>
              split at h
              · cases h
              · next call r hcall =>
                cases h
                exact of_readArguments hP f behind ht hf hts.tail.tail hcall
          · split at h
            · next hdot =>
              split at h
              · cases h
              · next column r hcolumn =>
                cases h
                obtain ⟨v, -, hv⟩ := Reads.identifier ⟨r, hcolumn, rfl⟩
                exact hP.qualified ht hdot hv (hts.tail.tail.identifier hcolumn)
            · cases h
              exact hP.column ht hkind
termination_by ts => 4 * ts.length + 1

theorem of_readArguments (hP : HeldByForms N P) (f : Function) (ts : List Token) {t : Token}
    {name : String} {call : Expr} {rest : Rest ts} (ht : IsName t name)
    (hf : Function.ofName? name = some f) (hts : Named N ts)
    (h : readArguments f ts = .ok (call, rest)) : P call := by
  rw [readArguments] at h
  split at h
  next distinct start hstart =>
    split at h
    · cases h
    · next es r hes =>
      split at h
      · cases h
      · split at h
        · cases h
        · next whole hcall =>
          cases h
          have hle := start.length_le
          have hheld := of_readArgumentList hP f start.1 (hts.rest start) hes
          rw [callOf] at hcall
          split at hcall
          · next htakes =>
            cases hcall
            refine hP.call ht hf ?_ hheld htakes
            rintro rfl
            exact readDistinct_count hstart
          · cases hcall
termination_by 4 * ts.length + 5

theorem of_readArgumentList (hP : HeldByForms N P) (f : Function) :
    (ts : List Token) → {es : List Expr} → {rest : Rest ts} → Named N ts →
      readArgumentList f ts = .ok (es, rest) → (f = .count ∧ es = [.star]) ∨ ∀ e ∈ es, P e
  | [], _, _, hts, h => by
    rw [readArgumentList] at h
    exact .inr (of_readExprs hP [] hts h)
  | t :: after, _, _, hts, h => by
    rw [readArgumentList] at h
    split at h
    · split at h
      · next hcount =>
        cases h
        exact .inl ⟨hcount, rfl⟩
      · cases h
    · split at h
      · cases h
        exact .inr (List.forall_mem_nil P)
      · exact .inr (of_readExprs hP (t :: after) hts h)
termination_by ts => 4 * ts.length + 4

theorem of_readExprs (hP : HeldByForms N P) (ts : List Token) {es : List Expr} {rest : Rest ts}
    (hts : Named N ts) (h : readExprs ts = .ok (es, rest)) : ∀ e ∈ es, P e := by
  rw [readExprs] at h
  split at h
  · cases h
  · next e r he =>
    have hheld := of_readExprFrom hP 0 ts hts he
    split at h
    · cases h
      exact List.forall_mem_singleton.2 hheld
    · next t after hr =>
      have hrest := hts.rest r
      rw [hr] at hrest
      split at h
      · split at h
        · cases h
        · next es s hes =>
          cases h
          have hlt : after.length < ts.length := by
            have hle := r.length_le
            rw [hr, List.length_cons] at hle
            omega
          exact List.forall_mem_cons.2 ⟨hheld, of_readExprs hP after hrest.tail hes⟩
      · cases h
        exact List.forall_mem_singleton.2 hheld
termination_by 4 * ts.length + 3

end

end HeldByForms
end SqlEngine.Grammar
