import SqlEngine.Proofs.Grammar.Brackets
import SqlEngine.Proofs.Grammar.WrittenCondition

/-!
# Reading back conditions in the known forms

A written condition in one of the known forms is read up to the boundary that follows it. Its
subject ends where the word or the operator of the form stands, and the AND that belongs to a
BETWEEN is taken before anything could end the condition.
-/
namespace SqlEngine.Grammar

theorem endsExpr_of_endsCondition {kind : TokenKind} (h : endsCondition kind = true) :
    endsExpr kind = true := by
  cases kind with
  | mark m =>
    cases m with
    | rightParen | semicolon => rfl
    | _ => cases h
  | _ => rfl

theorem ahead_endsExpr_of_boundary {rest : List Token} (h : atBoundary rest = true) :
    Ahead endsExpr rest := by
  cases rest with
  | nil => rintro t ⟨⟩
  | cons t after => exact ahead_cons rfl (endsExpr_of_endsCondition h)

theorem endsExpr_of_comparison {kind : TokenKind} {op : Comparison}
    (h : comparison? kind = some op) :
    endsExpr kind = true ∧ endsCondition kind = false ∧ ∀ word, kind ≠ .keyword word := by
  cases kind with
  | mark m =>
    cases m with
    | eq | ne | lt | gt | le | ge => exact ⟨rfl, rfl, by simp⟩
    | _ => cases h
  | _ => cases h

theorem reads_optionally {word : Keyword} {flag : Bool} {ws rest : List Token}
    (hws : Optionally word flag ws) (hrest : NotAhead (.keyword word) rest) :
    Reads (Reader.optional (.keyword word)) (ws ++ rest) flag rest := by
  cases hws with
  | absent => exact reads_optional_absent hrest
  | present ht => exact reads_optional ht rest

theorem reads_comparison {t : Token} {op : Comparison} (ht : comparison? t.kind = some op)
    (rest : List Token) : Reads readComparison (t :: rest) op rest :=
  ⟨.tail t rest (.whole rest), by rw [readComparison, ht], rfl⟩

/-- Behind its subject and a word NOT, a condition goes on with its form. -/
theorem reads_atom_of_form {subject : Expr} {negated : Bool} {k : Token}
    {ss ns after rest : List Token} {c : Condition} (hsubject : (Phrase.expr subject).Written ss)
    (hns : Optionally .NOT negated ns) (hends : endsExpr k.kind = true)
    (his : k.kind ≠ .keyword .IS) (hnot : k.kind ≠ .keyword .NOT)
    (hform : Reads (readForm subject negated) (k :: after) c rest) :
    Reads readAtom (ss ++ (ns ++ k :: after)) c rest := by
  have hahead : Ahead endsExpr (ns ++ k :: after) ∧ NotAhead (.keyword .IS) (ns ++ k :: after) := by
    cases hns with
    | absent => exact ⟨ahead_cons rfl hends, notAhead_cons rfl his⟩
    | present ht => exact ⟨ahead_cons ht rfl, notAhead_cons ht (by simp)⟩
  have hread : Reads readExpr (ss ++ (ns ++ k :: after)) subject (ns ++ k :: after) :=
    reads_expr_of_operand hsubject.readBack hahead.1
  refine reads_bind.2 ⟨subject, _, hread, ?_⟩
  refine reads_bind.2 ⟨false, _, reads_optional_absent hahead.2, ?_⟩
  exact reads_bind.2 ⟨negated, _, reads_optionally hns (notAhead_cons rfl hnot), hform⟩

/-- Every written condition in one of the known forms is read back. -/
theorem AtomWritten.readBack {c : Condition} {ts : List Token} (h : AtomWritten c ts)
    (rest : List Token) (hrest : atBoundary rest = true) : Reads readAtom (ts ++ rest) c rest := by
  have hend := ahead_endsExpr_of_boundary hrest
  cases h with
  | @isNull subject negated i n ss ns hsubject hi hns hn =>
    have hread : Reads readExpr (ss ++ (i :: ns ++ n :: rest)) subject (i :: ns ++ n :: rest) :=
      reads_expr_of_operand hsubject.readBack (ahead_cons hi rfl)
    have hlist : ss ++ i :: ns ++ [n] ++ rest = ss ++ (i :: ns ++ n :: rest) := by simp
    rw [hlist]
    refine reads_bind.2 ⟨subject, _, hread, ?_⟩
    refine reads_bind.2 ⟨true, _, reads_optional hi _, ?_⟩
    refine reads_bind.2 ⟨negated, _, reads_optionally hns (notAhead_cons hn (by simp)), ?_⟩
    refine reads_bind.2 ⟨(), _, reads_keyword hn rest, ?_⟩
    exact reads_pure.2 ⟨rfl, rfl⟩
  | @between subject low high negated b a ss ns ls hs hsubject hns hb hlow ha hhigh =>
    have hform : Reads (readForm subject negated) (b :: (ls ++ a :: (hs ++ rest)))
        (.between subject low high negated) rest := by
      refine reads_bind.2 ⟨true, _, reads_optional hb _, ?_⟩
      refine reads_bind.2 ⟨low, _, reads_expr_of_operand hlow.readBack (ahead_cons ha rfl), ?_⟩
      refine reads_bind.2 ⟨(), _, reads_keyword ha _, ?_⟩
      refine reads_bind.2 ⟨high, _, reads_expr_of_operand hhigh.readBack hend, ?_⟩
      exact reads_pure.2 ⟨rfl, rfl⟩
    have hread := reads_atom_of_form hsubject hns (by rw [hb]; rfl) (by rw [hb]; simp)
      (by rw [hb]; simp) hform
    simpa using hread
  | @oneOf subject items negated i l r ss ns is hsubject hns hi hl hitems hr =>
    have hform : Reads (readForm subject negated) (i :: l :: (is ++ r :: rest))
        (.oneOf subject items negated) rest := by
      refine reads_bind.2 ⟨false, _, reads_optional_absent (notAhead_cons hi (by simp)), ?_⟩
      refine reads_bind.2 ⟨true, _, reads_optional hi _, ?_⟩
      refine reads_bind.2 ⟨(), _, reads_mark hl _, ?_⟩
      refine reads_bind.2 ⟨items, _, hitems.readBack r rest hr, ?_⟩
      refine reads_bind.2 ⟨(), _, reads_mark hr rest, ?_⟩
      exact reads_pure.2 ⟨rfl, rfl⟩
    have hread := reads_atom_of_form hsubject hns (by rw [hi]; rfl) (by rw [hi]; simp)
      (by rw [hi]; simp) hform
    simpa using hread
  | @like subject pattern negated k ss ns ps hsubject hns hk hpattern =>
    have hform : Reads (readForm subject negated) (k :: (ps ++ rest))
        (.like subject pattern negated) rest := by
      refine reads_bind.2 ⟨false, _, reads_optional_absent (notAhead_cons hk (by simp)), ?_⟩
      refine reads_bind.2 ⟨false, _, reads_optional_absent (notAhead_cons hk (by simp)), ?_⟩
      refine reads_bind.2 ⟨true, _, reads_optional hk _, ?_⟩
      refine reads_bind.2 ⟨pattern, _, reads_expr_of_operand hpattern.readBack hend, ?_⟩
      exact reads_pure.2 ⟨rfl, rfl⟩
    have hread := reads_atom_of_form hsubject hns (by rw [hk]; rfl) (by rw [hk]; simp)
      (by rw [hk]; simp) hform
    simpa using hread
  | @compare op left right o ls rs hleft ho hright =>
    obtain ⟨hends, -, hword⟩ := endsExpr_of_comparison ho
    have hform : Reads (readForm left false) (o :: (rs ++ rest)) (.compare op left right) rest := by
      refine reads_bind.2 ⟨false, _, reads_optional_absent (notAhead_cons rfl (hword _)), ?_⟩
      refine reads_bind.2 ⟨false, _, reads_optional_absent (notAhead_cons rfl (hword _)), ?_⟩
      refine reads_bind.2 ⟨false, _, reads_optional_absent (notAhead_cons rfl (hword _)), ?_⟩
      refine reads_bind.2 ⟨op, _, reads_comparison ho _, ?_⟩
      refine reads_bind.2 ⟨right, _, reads_expr_of_operand hright.readBack hend, ?_⟩
      exact reads_pure.2 ⟨rfl, rfl⟩
    have hread := reads_atom_of_form hleft .absent hends (hword _) (hword _) hform
    simpa using hread

/-- The subject of a written condition in one of the known forms is followed by no boundary. -/
theorem AtomWritten.subject {c : Condition} {ts : List Token} (h : AtomWritten c ts) :
    ∃ e ss t after, (Phrase.expr e).Written ss ∧ ts = ss ++ t :: after ∧
      endsCondition t.kind = false := by
  have hform : ∀ {negated : Bool} {k : Token} {e : Expr} {ss ns after : List Token},
      (Phrase.expr e).Written ss → Optionally .NOT negated ns → endsCondition k.kind = false →
      ∃ e ss' t rest, (Phrase.expr e).Written ss' ∧ ss ++ ns ++ k :: after = ss' ++ t :: rest ∧
        endsCondition t.kind = false := by
    intro negated k e ss ns after hsubject hns hk
    cases hns with
    | absent => exact ⟨e, ss, k, after, hsubject, by simp, hk⟩
    | @present t ht => exact ⟨e, ss, t, k :: after, hsubject, by simp, by rw [ht]; rfl⟩
  cases h with
  | isNull hsubject hi _ _ => exact ⟨_, _, _, _, hsubject, List.append_assoc _ _ _, by rw [hi]; rfl⟩
  | between hsubject hns hb _ _ _ =>
    rw [List.append_assoc]
    exact hform hsubject hns (by rw [hb]; rfl)
  | oneOf hsubject hns hi _ _ _ =>
    rw [List.append_assoc]
    exact hform hsubject hns (by rw [hi]; rfl)
  | like hsubject hns hk _ => exact hform hsubject hns (by rw [hk]; rfl)
  | compare hleft ho _ => exact ⟨_, _, _, _, hleft, rfl, (endsExpr_of_comparison ho).2.1⟩

/-- A part in one of the known forms is read back where a boundary follows. -/
theorem AtomWritten.readNegation {c : Condition} {ts : List Token} (h : AtomWritten c ts)
    (rest : List Token) (hrest : atBoundary rest = true) :
    Reads readNegation (ts ++ rest) c rest := by
  have hsimple := reads_simple (h.readBack rest hrest) hrest
  obtain ⟨e, ss, t, after, hsubject, rfl, ht⟩ := h.subject
  have hprimary : readPrimary (ss ++ t :: after ++ rest) =
      readSimple (ss ++ t :: after ++ rest) := by
    rw [List.append_assoc]
    exact hsubject.primary e rfl (t :: after ++ rest) ht
  refine reads_negation_of_primary ?_ (hsimple.congr hprimary)
  obtain ⟨u, behind, rfl, hu⟩ := hsubject.head
  exact notAhead_cons rfl (endsCondition_of_startsExpr hu).2

end SqlEngine.Grammar
