import SqlEngine.Proofs.Grammar.ConditionReads
import SqlEngine.Proofs.Grammar.ReadBack

/-!
# Brackets of an expression

A bracket at the beginning of a condition is tried as the bracket of a condition first. When it
belongs to an expression, what stands in it is taken over in no known form up to the closing
bracket; no boundary follows that bracket, so the attempt is given up and the expression is read.
-/
namespace SqlEngine.Grammar

/-- A kind of token that a condition in no known form takes along wherever it stands. -/
def passes : TokenKind → Bool
  | .mark .leftParen | .keyword .BETWEEN => false
  | kind => !endsCondition kind

theorem endsCondition_of_passes {kind : TokenKind} (h : passes kind = true) :
    endsCondition kind = false := by
  rw [passes.eq_def] at h
  split at h
  · cases h
  · cases h
  · simpa using h

theorem ne_of_passes {kind other : TokenKind} (h : passes kind = true)
    (hother : passes other = false) : kind ≠ other := by
  rintro rfl
  rw [hother] at h
  cases h

theorem skip_passing {t : Token} (ht : passes t.kind = true) (depth : Nat) (pending : Bool)
    (ts : List Token) :
    skipUnrecognized depth pending (t :: ts) = t :: skipUnrecognized depth pending ts := by
  rw [skipUnrecognized]
  split
  case h_6 =>
    rw [endsCondition_of_passes ht, Bool.and_false]
    rfl
  all_goals
    next hkind =>
    rw [hkind] at ht
    cases ht

theorem passes_of_name {t : Token} {name : String} (h : t.name? = some name) :
    passes t.kind = true := by
  rw [Token.name?] at h
  cases hk : t.kind with
  | keyword word =>
    rw [hk] at h
    simp only [Option.ite_none_right_eq_some] at h
    revert h
    cases word <;> simp [Keyword.isNonReserved, passes, endsCondition]
  | mark m =>
    rw [hk] at h
    cases h
  | number x => rfl
  | string quote content => rfl
  | identifier name => rfl

theorem passes_of_operator {kind : TokenKind} {op : Operator} (h : operator? kind = some op) :
    passes kind = true := by
  cases kind with
  | mark m =>
    cases m with
    | leftParen | rightParen | semicolon => cases h
    | _ => rfl
  | _ => cases h

/-- A bracket and the one that closes it are taken along with what stands between them. -/
theorem skip_bracketed {l r : Token} {ts : List Token} (hl : l.kind = .mark .leftParen)
    (hr : r.kind = .mark .rightParen) (depth : Nat) (pending : Bool) (rest : List Token)
    (hts : ∀ us, skipUnrecognized (depth + 1) pending (ts ++ us) =
      ts ++ skipUnrecognized (depth + 1) pending us) :
    skipUnrecognized depth pending (l :: ts ++ r :: rest) =
      l :: ts ++ r :: skipUnrecognized depth pending rest := by
  rw [List.cons_append, skipUnrecognized, hl]
  simp only
  rw [hts, skipUnrecognized, hr]
  simp

/-- A condition in no known form takes every written phrase along. -/
theorem Phrase.Written.skip {p : Phrase} {ts : List Token} (h : p.Written ts) (depth : Nat)
    (pending : Bool) (rest : List Token) :
    skipUnrecognized depth pending (ts ++ rest) = ts ++ skipUnrecognized depth pending rest := by
  induction h generalizing depth rest with
  | number ht | text ht | null ht | star ht =>
    exact skip_passing (by rw [ht]; rfl) depth pending rest
  | column ht => exact skip_passing (passes_of_name ht.1) depth pending rest
  | qualified ht hd hu =>
    simp only [List.cons_append, List.nil_append]
    rw [skip_passing (passes_of_name ht.1), skip_passing (by rw [hd]; rfl),
      skip_passing (passes_of_name hu)]
  | negated ht _ ih =>
    rw [List.cons_append, skip_passing (by rw [ht]; rfl), ih]
    rfl
  | @binary l o r op left right ts us hl _ ho _ hr ihleft ihright =>
    have hinner : ∀ vs, skipUnrecognized (depth + 1) pending (ts ++ o :: us ++ vs) =
        ts ++ o :: us ++ skipUnrecognized (depth + 1) pending vs := by
      intro vs
      rw [List.append_assoc, ihleft, List.cons_append, skip_passing (passes_of_operator ho),
        ihright]
      simp
    have h := skip_bracketed hl hr depth pending rest hinner
    simpa using h
  | @call t l r name f distinct es ds ts ht _ hl _ hds _ _ hr ih =>
    have hinner : ∀ vs, skipUnrecognized (depth + 1) pending (ds ++ ts ++ vs) =
        ds ++ ts ++ skipUnrecognized (depth + 1) pending vs := by
      intro vs
      cases hds with
      | absent => exact ih (depth + 1) vs
      | present hd =>
        simp only [List.cons_append, List.nil_append]
        rw [skip_passing (by rw [hd]; rfl), ih]
    have hlist : t :: l :: ds ++ ts ++ [r] ++ rest = t :: (l :: (ds ++ ts) ++ r :: rest) := by
      simp
    rw [hlist, skip_passing (passes_of_name ht.1), skip_bracketed hl hr depth pending rest hinner]
    simp
  | plain _ ih => exact ih depth rest
  | single _ ih => exact ih depth rest
  | more _ ht _ ihe ihes =>
    rw [List.append_assoc, ihe, List.cons_append, skip_passing (by rw [ht]; rfl), ihes]
    simp

/-- An expression up to a closing bracket is no condition in a known form. -/
theorem refuses_atom_of_close {e : Expr} {r : Token} {ts rest : List Token}
    (he : Reads readExpr ts e (r :: rest)) (hr : r.kind = .mark .rightParen) :
    Refuses readAtom ts := by
  have habsent : ∀ word, Reads (Reader.optional (.keyword word)) (r :: rest) false (r :: rest) := by
    intro word
    refine reads_optional_absent ?_
    rintro t ⟨⟩
    rw [hr]
    simp
  have hcompare : Refuses readComparison (r :: rest) := by
    refine ⟨.complaint r .expectedComparison, ?_⟩
    rw [readComparison, hr]
    rfl
  have hform : Refuses (readForm e false) (r :: rest) := by
    refine refuses_bind (habsent .BETWEEN) ?_
    refine refuses_bind (habsent .IN) ?_
    refine refuses_bind (habsent .LIKE) ?_
    exact refuses_bind_left hcompare
  refine refuses_bind he ?_
  refine refuses_bind (habsent .IS) ?_
  exact refuses_bind (habsent .NOT) hform

theorem skip_close {r : Token} (hr : r.kind = .mark .rightParen) (pending : Bool)
    (rest : List Token) : skipUnrecognized 0 pending (r :: rest) = [] := by
  rw [skipUnrecognized, hr]
  rfl

theorem endsCondition_of_startsExpr {kind : TokenKind} (h : startsExpr kind = true) :
    endsCondition kind = false ∧ kind ≠ .keyword .NOT := by
  cases kind with
  | keyword word => cases word <;> simp_all [startsExpr, endsCondition, Keyword.isNonReserved]
  | mark m => cases m <;> simp_all [startsExpr, endsCondition]
  | _ => exact ⟨rfl, by simp⟩

/-- A bracket that begins a written expression is not taken for the bracket of a condition, unless
a boundary follows the expression. -/
theorem Phrase.Written.primary {p : Phrase} {ts : List Token} (h : p.Written ts) (e : Expr)
    (hp : p = .expr e) (rest : List Token) (hrest : atBoundary rest = false) :
    readPrimary (ts ++ rest) = readSimple (ts ++ rest) := by
  induction h generalizing e rest with
  | number ht | text ht | null ht | negated ht _ _ =>
    exact readPrimary_of_head (by rw [ht]; rfl) (by rw [ht]; simp)
  | column ht | qualified ht _ _ | call ht _ _ _ _ _ _ _ _ =>
    exact readPrimary_of_head (endsCondition_of_startsExpr ht.startsExpr).1 ht.ne_leftParen
  | @binary l o r op left right ls us hl hleft ho hright hr ih _ =>
    have hlist : l :: ls ++ o :: us ++ [r] ++ rest = l :: (ls ++ (o :: us ++ r :: rest)) := by
      simp
    have hbinary : Reads readExpr (ls ++ (o :: us ++ r :: rest)) (.binary op left right)
        (r :: rest) := reads_binary hleft.readBack ho hright.readBack hr
    have hop : atBoundary (o :: us ++ r :: rest) = false :=
      endsCondition_of_passes (passes_of_operator ho)
    have htaken : Reads readUnrecognized (ls ++ (o :: us ++ r :: rest))
        (.unrecognized (Token.textOf (ls ++ o :: us))) (r :: rest) := by
      have hskip : skipUnrecognized 0 false (ls ++ o :: us ++ r :: rest) = ls ++ o :: us := by
        rw [List.append_assoc, hleft.skip, List.cons_append, skip_passing (passes_of_operator ho),
          hright.skip, skip_close hr, List.append_nil]
      simpa using reads_unrecognized hskip
    have hsimple := reads_simple_of_refuses (refuses_atom_of_close hbinary hr) htaken
    have hnot : NotAhead (.keyword .NOT) (ls ++ (o :: us ++ r :: rest)) := by
      obtain ⟨t, after, rfl, ht⟩ := hleft.head
      exact notAhead_cons rfl (endsCondition_of_startsExpr ht).2
    have hpart := reads_negation_of_primary hnot (hsimple.congr (ih left rfl _ hop))
    have hcondition := reads_condition_single hpart (notAhead_cons hr (by simp))
      (notAhead_cons hr (by simp))
    rw [hlist]
    exact readPrimary_of_no_boundary hl hcondition hr hrest
  | star | plain | single | more => cases hp

end SqlEngine.Grammar
