import SqlEngine.Proofs.Grammar.AtomReadBack

/-!
# Reading back conditions

A recognized condition is read back from every list of tokens that writes it, exactly up to the
boundary that follows, and none of its parts is left unrecognized. AND and OR are boundaries inside
a condition only: behind a whole condition they would go on with it.
-/
namespace SqlEngine.Grammar

/-- The tokens are read as parts with the same word between them. -/
inductive Operands (word : Keyword) : List Token → List Condition → List Token → Prop where
  | last {ts rest : List Token} {c : Condition} (hc : Reads readNegation ts c rest) :
      Operands word ts [c] rest
  | more {t : Token} {ts after rest : List Token} {c : Condition} {cs : List Condition}
      (hc : Reads readNegation ts c (t :: after)) (ht : t.kind = .keyword word)
      (hcs : Operands word after cs rest) : Operands word ts (c :: cs) rest

/-- Parts with AND between them are read as a conjunction. -/
theorem Operands.conjunction {ts rest : List Token} {cs : List Condition}
    (h : Operands .AND ts cs rest) (hrest : NotAhead (.keyword .AND) rest) :
    ∃ first others mid, cs = first :: others ∧ Reads readNegation ts first mid ∧
      Reads readParts mid others rest := by
  induction h with
  | last hc => exact ⟨_, [], _, rfl, hc, reads_parts_stop hrest⟩
  | more hc ht _ ih =>
    obtain ⟨first, others, mid, rfl, hfirst, hothers⟩ := ih hrest
    exact ⟨_, first :: others, _, rfl, hc, reads_parts_more ht hfirst hothers⟩

/-- Parts with OR between them are read as a disjunction. -/
theorem Operands.disjunction {ts rest : List Token} {cs : List Condition}
    (h : Operands .OR ts cs rest) (hand : NotAhead (.keyword .AND) rest)
    (hor : NotAhead (.keyword .OR) rest) :
    ∃ first others mid, cs = first :: others ∧ Reads readConjunction ts first mid ∧
      Reads readBranches mid others rest := by
  induction h with
  | last hc => exact ⟨_, [], _, rfl, reads_conjunction_single hc hand, reads_branches_stop hor⟩
  | more hc ht _ ih =>
    obtain ⟨first, others, mid, rfl, hfirst, hothers⟩ := ih hand hor
    have hconjunction := reads_conjunction_single hc (notAhead_cons ht (by simp))
    exact ⟨_, first :: others, _, rfl, hconjunction, reads_branches_more ht hfirst hothers⟩

/-- What reading a written clause comes to where a boundary follows. -/
def Clause.ReadBack : Clause → List Token → Prop
  | .whole c, ts => ∀ rest, atBoundary rest = true → NotAhead (.keyword .AND) rest →
    NotAhead (.keyword .OR) rest → Reads readCondition (ts ++ rest) c rest
  | .operand c, ts => ∀ rest, atBoundary rest = true → Reads readNegation (ts ++ rest) c rest
  | .operands word cs, ts => endsCondition (.keyword word) = true → ∀ rest,
    atBoundary rest = true → Operands word (ts ++ rest) cs rest

/-- Every written clause is read back. -/
theorem Clause.Written.readBack {k : Clause} {ts : List Token} (h : k.Written ts) :
    k.ReadBack ts := by
  induction h with
  | atom hc =>
    intro rest hrest hand hor
    exact reads_condition_single (hc.readNegation rest hrest) hand hor
  | negation ht _ ih =>
    intro rest hrest hand hor
    exact reads_condition_single (reads_negation ht (ih rest hrest)) hand hor
  | conjunction hlen _ ih =>
    intro rest hrest hand hor
    obtain ⟨first, others, mid, rfl, hfirst, hothers⟩ := (ih rfl rest hrest).conjunction hand
    obtain ⟨second, others, rfl⟩ := List.exists_cons_of_length_pos (Nat.le_of_succ_le_succ hlen)
    exact reads_condition (reads_conjunction hfirst hothers) (reads_branches_stop hor)
  | disjunction hlen _ ih =>
    intro rest hrest hand hor
    obtain ⟨first, others, mid, rfl, hfirst, hothers⟩ := (ih rfl rest hrest).disjunction hand hor
    obtain ⟨second, others, rfl⟩ := List.exists_cons_of_length_pos (Nat.le_of_succ_le_succ hlen)
    exact reads_condition hfirst hothers
  | bare hc => exact fun rest hrest => hc.readNegation rest hrest
  | @bracketed l r c ts _ hl _ hr ih =>
    intro rest hrest
    have hinner : Reads readCondition (ts ++ r :: rest) c (r :: rest) := by
      refine ih (r :: rest) ?_ (notAhead_cons hr (by simp)) (notAhead_cons hr (by simp))
      rw [atBoundary, hr]
      rfl
    have hgroup := reads_group hl hinner hr hrest
    have hnot : NotAhead (.keyword .NOT) (l :: (ts ++ r :: rest)) := notAhead_cons hl (by simp)
    simpa using reads_negation_of_primary hnot hgroup
  | last _ ih => exact fun _ rest hrest => .last (ih rest hrest)
  | @more word t c cs ts us _ ht _ ihc ihcs =>
    intro hword rest hrest
    have hfirst : Reads readNegation (ts ++ t :: (us ++ rest)) c (t :: (us ++ rest)) := by
      refine ihc _ ?_
      rw [atBoundary, ht]
      exact hword
    have h := Operands.more hfirst ht (ihcs hword rest hrest)
    simpa using h

/-- Whatever is written as an expression is read from some tokens. -/
theorem Phrase.Written.returned {e : Expr} {ts : List Token} (h : (Phrase.expr e).Written ts) :
    Returned e := by
  have hend : Ahead endsExpr [] := by rintro t ⟨⟩
  exact ⟨ts ++ [], [], reads_expr_of_operand h.readBack hend⟩

/-- The condition is unrecognized, or one of the conditions it is made of is. -/
inductive UnrecognizedIn : Condition → Prop where
  | here {text : String} : UnrecognizedIn (.unrecognized text)
  | negation {c : Condition} (hc : UnrecognizedIn c) : UnrecognizedIn (.negation c)
  | conjunction {c : Condition} {cs : List Condition} (hmem : c ∈ cs) (hc : UnrecognizedIn c) :
      UnrecognizedIn (.conjunction cs)
  | disjunction {c : Condition} {cs : List Condition} (hmem : c ∈ cs) (hc : UnrecognizedIn c) :
      UnrecognizedIn (.disjunction cs)

theorem Recognized.not_unrecognizedIn {c : Condition} (h : Recognized c) : ¬ UnrecognizedIn c := by
  induction h with
  | isNull | between | oneOf | like | compare => rintro ⟨⟩
  | negation _ ih =>
    rintro ⟨⟩
    exact ih ‹_›
  | conjunction _ _ ih =>
    rintro ⟨⟩
    exact ih _ ‹_› ‹_›
  | disjunction _ _ ih =>
    rintro ⟨⟩
    exact ih _ ‹_› ‹_›

/-- A recognized condition can be written, and from whatever tokens write it, it is read back up to
the boundary that follows, unless that boundary goes on with a longer condition. -/
theorem readCondition_written {c : Condition} (h : Recognized c) :
    (∃ ts, (Clause.whole c).Written ts) ∧
      ∀ ts rest, (Clause.whole c).Written ts → atBoundary rest = true →
        NotAhead (.keyword .AND) rest → NotAhead (.keyword .OR) rest →
          Reads readCondition (ts ++ rest) c rest ∧ ¬ UnrecognizedIn c := by
  refine ⟨h.exists_written, ?_⟩
  intro ts rest hts hrest hand hor
  exact ⟨hts.readBack rest hrest hand hor, h.not_unrecognizedIn⟩

/-- The condition (NULL + NULL) IS NULL OR NOT NULL BETWEEN NULL AND NULL. -/
def sumOrBetween : Condition :=
  .disjunction [.isNull (.binary .add (.literal .null) (.literal .null)) false,
    .negation (.between (.literal .null) (.literal .null) (.literal .null) false)]

/-- Here a bracket of an expression stands at the front and an AND belongs to a BETWEEN. -/
theorem readCondition_written_sumOrBetween :
    Recognized sumOrBetween ∧ ∃ ts, (Clause.whole sumOrBetween).Written ts ∧
      Reads readCondition (ts ++ [tokenOf (.mark .rightParen)]) sumOrBetween
        [tokenOf (.mark .rightParen)] ∧ ¬ UnrecognizedIn sumOrBetween := by
  have hnull : (Phrase.expr (.literal .null)).Written [tokenOf (.keyword .NULL)] := .null rfl
  have hplus : operator? (tokenOf (.mark .plus)).kind = some .add := rfl
  obtain ⟨_, hsum⟩ := writable_binary hplus ⟨_, hnull⟩ ⟨_, hnull⟩
  have hrecognized : Recognized sumOrBetween := by
    refine .disjunction (by decide) ?_
    intro c hc
    simp only [List.mem_cons, List.not_mem_nil, or_false] at hc
    rcases hc with rfl | rfl
    · exact .isNull hsum.returned
    · exact .negation (.between hnull.returned hnull.returned hnull.returned)
  obtain ⟨⟨ts, hts⟩, hread⟩ := readCondition_written hrecognized
  have hclose := hread ts [tokenOf (.mark .rightParen)] hts rfl
    (notAhead_cons rfl (by simp [tokenOf])) (notAhead_cons rfl (by simp [tokenOf]))
  exact ⟨hrecognized, ts, hts, hclose⟩

/-- Up to an AND it is not: NULL = NULL AND NULL = NULL is read whole, not up to its AND. -/
theorem readCondition_goes_on_at_and :
    ¬ ∀ (c : Condition) (ts rest : List Token), Recognized c → (Clause.whole c).Written ts →
      atBoundary rest = true → Reads readCondition (ts ++ rest) c rest := by
  intro h
  let equation : Condition := .compare .eq (.literal .null) (.literal .null)
  let null := tokenOf (.keyword .NULL)
  let tokens : List Token := [null, tokenOf (.mark .eq), null]
  have hnull : (Phrase.expr (.literal .null)).Written [null] := .null rfl
  have hatom : AtomWritten equation tokens := .compare hnull rfl hnull
  have hrecognized : Recognized equation := .compare hnull.returned hnull.returned
  have hclaim := h equation tokens (tokenOf (.keyword .AND) :: tokens) hrecognized (.atom hatom) rfl
  have hlonger : (Clause.whole (.conjunction [equation, equation])).Written
      (tokens ++ tokenOf (.keyword .AND) :: tokens) :=
    .conjunction (by decide) (.more (.bare hatom) rfl (.last (.bare hatom)))
  have hwhole := hlonger.readBack [] rfl (by rintro t ⟨⟩) (by rintro t ⟨⟩)
  rw [List.append_nil] at hwhole
  cases (hclaim.unique hwhole).2

end SqlEngine.Grammar
