import SqlEngine.Grammar.Condition
import SqlEngine.Proofs.Grammar.Reads

/-!
# What the readers of conditions read

Each reader of conditions is described by what it reads when the readers it calls read something:
what stands between OR, what stands between AND, what stands behind NOT, and what stands in
brackets.
-/
namespace SqlEngine.Grammar

/-- The tokens do not begin with one of the given kind. -/
def NotAhead (kind : TokenKind) (ts : List Token) : Prop := ∀ t ∈ ts.head?, t.kind ≠ kind

theorem notAhead_cons {kind other : TokenKind} {t : Token} {ts : List Token} (ht : t.kind = other)
    (hne : other ≠ kind) : NotAhead kind (t :: ts) := by
  rintro u ⟨⟩
  rw [ht]
  exact hne

theorem reads_condition {ts mid rest : List Token} {first : Condition} {others : List Condition}
    (hfirst : Reads readConjunction ts first mid) (hothers : Reads readBranches mid others rest) :
    Reads readCondition ts (disjunctionOf first others) rest := by
  obtain ⟨r, hr, rfl⟩ := hfirst
  obtain ⟨s, hs, rfl⟩ := hothers
  refine ⟨r.trans s, ?_, rfl⟩
  rw [readCondition, hr]
  simp only [hs]

theorem reads_branches_stop {rest : List Token} (hrest : NotAhead (.keyword .OR) rest) :
    Reads readBranches rest [] rest := by
  cases rest with
  | nil => exact ⟨.whole [], by rw [readBranches], rfl⟩
  | cons t after => exact ⟨.whole _, by rw [readBranches, if_neg (hrest t rfl)], rfl⟩

theorem reads_branches_more {t : Token} {after mid rest : List Token} {first : Condition}
    {others : List Condition} (ht : t.kind = .keyword .OR)
    (hfirst : Reads readConjunction after first mid)
    (hothers : Reads readBranches mid others rest) :
    Reads readBranches (t :: after) (first :: others) rest := by
  obtain ⟨r, hr, rfl⟩ := hfirst
  obtain ⟨s, hs, rfl⟩ := hothers
  refine ⟨.tail t after (r.trans s), ?_, rfl⟩
  rw [readBranches, if_pos ht, hr]
  simp only [hs]

theorem reads_conjunction {ts mid rest : List Token} {first : Condition} {others : List Condition}
    (hfirst : Reads readNegation ts first mid) (hothers : Reads readParts mid others rest) :
    Reads readConjunction ts (conjunctionOf first others) rest := by
  obtain ⟨r, hr, rfl⟩ := hfirst
  obtain ⟨s, hs, rfl⟩ := hothers
  refine ⟨r.trans s, ?_, rfl⟩
  rw [readConjunction, hr]
  simp only [hs]

theorem reads_parts_stop {rest : List Token} (hrest : NotAhead (.keyword .AND) rest) :
    Reads readParts rest [] rest := by
  cases rest with
  | nil => exact ⟨.whole [], by rw [readParts], rfl⟩
  | cons t after => exact ⟨.whole _, by rw [readParts, if_neg (hrest t rfl)], rfl⟩

theorem reads_parts_more {t : Token} {after mid rest : List Token} {first : Condition}
    {others : List Condition} (ht : t.kind = .keyword .AND)
    (hfirst : Reads readNegation after first mid) (hothers : Reads readParts mid others rest) :
    Reads readParts (t :: after) (first :: others) rest := by
  obtain ⟨r, hr, rfl⟩ := hfirst
  obtain ⟨s, hs, rfl⟩ := hothers
  refine ⟨.tail t after (r.trans s), ?_, rfl⟩
  rw [readParts, if_pos ht, hr]
  simp only [hs]

/-- A part that no AND follows is a conjunction by itself. -/
theorem reads_conjunction_single {ts rest : List Token} {c : Condition}
    (hc : Reads readNegation ts c rest) (hrest : NotAhead (.keyword .AND) rest) :
    Reads readConjunction ts c rest := reads_conjunction hc (reads_parts_stop hrest)

/-- A part that neither AND nor OR follows is a condition by itself. -/
theorem reads_condition_single {ts rest : List Token} {c : Condition}
    (hc : Reads readNegation ts c rest) (hand : NotAhead (.keyword .AND) rest)
    (hor : NotAhead (.keyword .OR) rest) : Reads readCondition ts c rest :=
  reads_condition (reads_conjunction_single hc hand) (reads_branches_stop hor)

theorem reads_negation {t : Token} {after rest : List Token} {c : Condition}
    (ht : t.kind = .keyword .NOT) (hc : Reads readNegation after c rest) :
    Reads readNegation (t :: after) (.negation c) rest := by
  obtain ⟨r, hr, rfl⟩ := hc
  refine ⟨.tail t after r, ?_, rfl⟩
  rw [readNegation, if_pos ht]
  simp only [hr]

theorem reads_negation_of_primary {ts rest : List Token} {c : Condition}
    (hts : NotAhead (.keyword .NOT) ts) (hc : Reads readPrimary ts c rest) :
    Reads readNegation ts c rest := by
  obtain ⟨r, hr, rfl⟩ := hc
  refine ⟨r, ?_, rfl⟩
  cases ts with
  | nil => rw [readNegation, hr]
  | cons t after => rw [readNegation, if_neg (hts t rfl), hr]

/-- Brackets around a condition are taken off when a boundary follows them. -/
theorem reads_group {l r : Token} {after rest : List Token} {c : Condition}
    (hl : l.kind = .mark .leftParen) (hc : Reads readCondition after c (r :: rest))
    (hr : r.kind = .mark .rightParen) (hrest : atBoundary rest = true) :
    Reads readPrimary (l :: after) c rest := by
  obtain ⟨s, hs, hval⟩ := hc
  obtain ⟨u, hu, rfl⟩ := hval ▸ reads_mark hr rest
  refine ⟨.tail l after (s.trans u), ?_, rfl⟩
  have hends : ¬ endsCondition l.kind = true := by
    rw [hl]
    decide
  rw [readPrimary, if_neg hends, if_pos hl, hs]
  simp only [hu]
  rw [if_pos hrest]

/-- Brackets that no boundary follows belong to an expression. -/
theorem readPrimary_of_no_boundary {l r : Token} {after rest : List Token} {c : Condition}
    (hl : l.kind = .mark .leftParen) (hc : Reads readCondition after c (r :: rest))
    (hr : r.kind = .mark .rightParen) (hrest : atBoundary rest = false) :
    readPrimary (l :: after) = readSimple (l :: after) := by
  obtain ⟨s, hs, hval⟩ := hc
  obtain ⟨u, hu, rfl⟩ := hval ▸ reads_mark hr rest
  have hends : ¬ endsCondition l.kind = true := by
    rw [hl]
    decide
  rw [readPrimary, if_neg hends, if_pos hl, hs]
  simp only [hu]
  rw [hrest]
  rfl

theorem readPrimary_of_head {t : Token} {after : List Token} (hends : endsCondition t.kind = false)
    (hl : t.kind ≠ .mark .leftParen) : readPrimary (t :: after) = readSimple (t :: after) := by
  rw [readPrimary, hends, if_neg hl]
  rfl

theorem reads_simple {ts rest : List Token} {c : Condition} (hc : Reads readAtom ts c rest)
    (hrest : atBoundary rest = true) : Reads readSimple ts c rest := by
  obtain ⟨r, hr, rfl⟩ := hc
  refine ⟨r, ?_, rfl⟩
  rw [readSimple, hr]
  simp only [if_pos hrest]

/-- What is no condition in a known form up to a boundary is taken over as it is. -/
theorem reads_simple_of_no_atom {ts rest : List Token} {c : Condition}
    (hatom : ∀ known behind, Reads readAtom ts known behind → atBoundary behind = false)
    (hc : Reads readUnrecognized ts c rest) : Reads readSimple ts c rest := by
  obtain ⟨r, hr, rfl⟩ := hc
  refine ⟨r, ?_, rfl⟩
  rw [readSimple]
  split
  · exact hr
  · next known behind hknown =>
    rw [hatom known behind.1 ⟨behind, hknown, rfl⟩]
    exact hr

theorem reads_simple_of_refuses {ts rest : List Token} {c : Condition} (hatom : Refuses readAtom ts)
    (hc : Reads readUnrecognized ts c rest) : Reads readSimple ts c rest :=
  reads_simple_of_no_atom (fun _ _ hknown => absurd hknown hatom.not_reads) hc

theorem reads_unrecognized {ts rest : List Token}
    (h : skipUnrecognized 0 false (ts ++ rest) = ts) :
    Reads readUnrecognized (ts ++ rest) (.unrecognized (Token.textOf ts)) rest := by
  refine ⟨⟨(ts ++ rest).drop ts.length, List.drop_suffix _ _⟩, ?_, List.drop_left⟩
  rw [readUnrecognized]
  simp only [h]

end SqlEngine.Grammar
