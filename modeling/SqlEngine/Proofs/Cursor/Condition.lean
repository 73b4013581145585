import SqlEngine.Proofs.Cursor.Expr

/-!
# Conditions by position

Twice the position goes back to where a condition began: when brackets turn out to belong to an
expression, and when the condition has none of the known forms. A failure is caught before, and it
has left the position somewhere among the tokens; what is read from the beginning of the condition
does not depend on where. A condition in no known form is passed over, with a count of the open
brackets that is lowered only where it is above zero.
-/
namespace SqlEngine.Cursor

open Grammar SqlEngine.Cursor.Parser

variable {sql : String} {list : TokenList} {ts after : List Token} {t : Token} {limit : Nat}

section Forms

theorem gives_boundary (hts : ts <:+ list.tokens) :
    Gives sql list boundary ts (atBoundary ts) ts := by
  refine (gives_current hts).bind ?_
  cases ts <;> exact gives_pure _ _

variable (h : Lexer.tokens sql = .ok list)

theorem follows_compareOp : Follows sql list limit compareOp readComparison := by
  intro ts hts _
  refine (gives_current hts).tracks ?_
  cases ts with
  | nil => exact tracks_fail hts _
  | cons t after =>
    rw [readComparison, ahead_kind_bind]
    cases comparison? t.kind with
    | none => exact tracks_fail hts _
    | some op => exact (gives_advance hts).tracks (tracks_value op rfl)

include h

theorem follows_expr : Follows sql list limit (expr 0) readExpr := (exprFollows h limit).expr 0

theorem follows_between (subject : Expr) (negated : Bool) :
    Follows sql list limit (between subject negated) (readBetween subject negated) :=
  (follows_expr h).bind fun _ => (follows_keyword h _).bind fun _ => (follows_expr h).bind fun _ =>
    follows_pure _

theorem follows_oneOf (subject : Expr) (negated : Bool) :
    Follows sql list limit (oneOf subject negated) (readOneOf subject negated) :=
  (follows_mark h _).bind fun _ => ((exprFollows h limit).exprs).bind fun _ =>
    (follows_mark h _).bind fun _ => follows_pure _

theorem follows_form (subject : Expr) (negated : Bool) :
    Follows sql list limit (form subject negated) (readForm subject negated) := by
  refine (follows_matchToken _).bind fun isBetween => ?_
  cases isBetween with
  | true => exact follows_between h subject negated
  | false =>
    refine (follows_matchToken _).bind fun isIn => ?_
    cases isIn with
    | true => exact follows_oneOf h subject negated
    | false =>
      refine (follows_matchToken _).bind fun isLike => ?_
      cases isLike with
      | true => exact (follows_expr h).bind fun _ => follows_pure _
      | false =>
        cases negated with
        | true => exact fun ts hts _ => tracks_fail hts _
        | false =>
          exact follows_compareOp.bind fun _ => (follows_expr h).bind fun _ => follows_pure _

theorem follows_atom : Follows sql list limit atom readAtom := by
  refine (follows_expr h).bind fun subject => (follows_matchToken _).bind fun isNull => ?_
  cases isNull with
  | true =>
    exact (follows_matchToken _).bind fun _ => (follows_keyword h _).bind fun _ => follows_pure _
  | false => exact (follows_matchToken _).bind fun negated => follows_form h subject negated

end Forms

section Skipping

theorem skipUnrecognized_prefix (depth : Nat) (pending : Bool) (ts : List Token) :
    Grammar.skipUnrecognized depth pending ts <+: ts := by
  fun_induction Grammar.skipUnrecognized depth pending ts <;> simp_all

theorem skipUnrecognized_other {depth : Nat} {pending : Bool}
    (hsemicolon : t.kind = .mark .semicolon → False) (hleft : t.kind = .mark .leftParen → False)
    (hright : t.kind = .mark .rightParen → False) (hbetween : t.kind = .keyword .BETWEEN → False)
    (hand : t.kind = .keyword .AND → False) :
    Grammar.skipUnrecognized depth pending (t :: after) =
      if depth = 0 && endsCondition t.kind then []
      else t :: Grammar.skipUnrecognized depth pending after := by
  rw [Grammar.skipUnrecognized]
  split
  · next heq => exact absurd heq hsemicolon
  · next heq => exact absurd heq hleft
  · next heq => exact absurd heq hright
  · next heq => exact absurd heq hbetween
  · next heq => exact absurd heq hand
  · rfl

theorem gives_skipUnrecognized (hts : ts <:+ list.tokens) (stop depth : Nat) (pending : Bool) :
    Gives sql list (skipUnrecognized stop depth pending) ts
      (stopOf stop (Grammar.skipUnrecognized depth pending ts))
      (ts.drop (Grammar.skipUnrecognized depth pending ts).length) := by
  induction ts generalizing stop depth pending with
  | nil =>
    exact Gives.call ((gives_current hts).bind (gives_pure stop []))
  | cons t after ih =>
    have hafter := suffix_tail hts
    have hadvance : Gives sql list advance (t :: after) () after := gives_advance hts
    have hgo : ∀ depth pending, Gives sql list (skipUnrecognized t.stop depth pending) after
        (stopOf stop (t :: Grammar.skipUnrecognized depth pending after))
        ((t :: after).drop (t :: Grammar.skipUnrecognized depth pending after).length) := by
      intro depth pending
      rw [stopOf_cons]
      exact ih hafter t.stop depth pending
    refine Gives.call ((gives_current hts).bind ?_)
    dsimp only [ahead, Placed.ofToken]
    split
    · next hkind => cases hkind
    · next hkind =>
      rw [Grammar.skipUnrecognized, Option.some_inj.1 hkind]
      exact gives_pure stop (t :: after)
    · next hkind =>
      rw [Grammar.skipUnrecognized, Option.some_inj.1 hkind]
      exact hadvance.bind (hgo (depth + 1) pending)
    · next hkind =>
      rw [Grammar.skipUnrecognized, Option.some_inj.1 hkind]
      dsimp only
      cases depth with
      | zero => exact gives_pure stop (t :: after)
      | succ depth => exact (gives_lower depth _).bind (hadvance.bind (hgo depth pending))
    · next hkind =>
      rw [Grammar.skipUnrecognized, Option.some_inj.1 hkind]
      exact hadvance.bind (hgo depth true)
    · next hkind =>
      rw [Grammar.skipUnrecognized, Option.some_inj.1 hkind]
      dsimp only
      split
      · cases pending with
        | true => exact hadvance.bind (hgo depth false)
        | false => exact gives_pure stop (t :: after)
      · exact hadvance.bind (hgo depth pending)
    · next kind hsemicolon hleft hright hbetween hand hkind =>
      obtain rfl := Option.some_inj.1 hkind
      rw [skipUnrecognized_other hsemicolon hleft hright hbetween hand]
      split
      · exact gives_pure stop (t :: after)
      · exact hadvance.bind (hgo depth pending)

theorem gives_unrecognized (h : Lexer.tokens sql = .ok list) (hts : ts <:+ list.tokens) :
    Gives sql list unrecognized ts
      (.unrecognized (Token.textOf (Grammar.skipUnrecognized 0 false ts)))
      (ts.drop (Grammar.skipUnrecognized 0 false ts).length) := by
  generalize htaken : Grammar.skipUnrecognized 0 false ts = taken
  have hstop : Gives sql list _ ts _ _ :=
    gives_skipUnrecognized hts (ahead list ts).start.offset 0 false
  rw [htaken] at hstop
  have hslices := slices_taken h hts (htaken ▸ skipUnrecognized_prefix 0 false ts)
  refine (gives_current hts).bind (hstop.bind ?_)
  exact (gives_slice hslices _).bind (gives_pure _ _)

end Skipping

section Simple

variable (h : Lexer.tokens sql = .ok list)
include h

/-- From wherever the parser is, it goes back to where the condition began. -/
theorem tracks_unrecognized (hts : ts <:+ list.tokens) (here : List Token) :
    Tracks sql list (do moveTo (place list ts); unrecognized) here (readUnrecognized ts) :=
  (gives_moveTo here ts).tracks (.value (gives_unrecognized h hts))

theorem tracks_simple (hts : ts <:+ list.tokens) :
    Tracks sql list (simple (place list ts)) ts (readSimple ts) := by
  rw [simple, readSimple]
  refine (follows_atom h ts hts (Nat.le_refl _)).attempt ?_ ?_
  · intro e cause rest he _
    rw [he]
    exact tracks_unrecognized h hts rest
  · intro c r hr
    rw [hr]
    refine (gives_boundary (r.2.trans hts)).tracks ?_
    dsimp only
    split
    · exact tracks_value c rfl
    · exact tracks_unrecognized h hts r.1

end Simple

/-- The parsers of conditions follow the readers wherever at most `limit` tokens are left. -/
structure ConditionFollows (sql : String) (list : TokenList) (limit : Nat) : Prop where
  condition : Follows sql list limit predicate readCondition
  conjunction : Follows sql list limit conjunction readConjunction
  negation : Follows sql list limit negation readNegation

theorem readBranches_step (ts : List Token) :
    readBranches ts = furtherStep (.keyword .OR) readConjunction readBranches ts := by
  rw [readBranches.eq_def]
  cases ts with
  | nil => rfl
  | cons t after =>
    dsimp only [furtherStep]
    cases readConjunction after with
    | error e => rfl
    | ok read =>
      dsimp only
      cases readBranches read.2.1 <;> rfl

theorem readParts_step (ts : List Token) :
    readParts ts = furtherStep (.keyword .AND) readNegation readParts ts := by
  rw [readParts.eq_def]
  cases ts with
  | nil => rfl
  | cons t after =>
    dsimp only [furtherStep]
    cases readNegation after with
    | error e => rfl
    | ok read =>
      dsimp only
      cases readParts read.2.1 <;> rfl

section Condition

variable (ih : ∀ less < limit, ConditionFollows sql list less)

/-- The closing bracket and a boundary are there, or the condition is given up. -/
theorem gives_closed (hts : ts <:+ list.tokens) (inner : Condition) :
    ∃ result rest, Gives sql list (closed inner) ts result rest ∧
      ((∃ e, Reader.mark .rightParen ts = .error e) ∧ result = none ∨
        ∃ r, Reader.mark .rightParen ts = .ok ((), r) ∧ r.1 = rest ∧
          result = if atBoundary rest then some inner else none) := by
  cases ts with
  | nil =>
    have hopen : Gives sql list (matchToken (.mark .rightParen)) [] false [] :=
      gives_matchToken_false hts (ahead_kind_nil _)
    exact ⟨none, [], hopen.bind (gives_pure none []), .inl ⟨⟨_, rfl⟩, rfl⟩⟩
  | cons t after =>
    by_cases ht : t.kind = .mark .rightParen
    · refine ⟨if atBoundary after then some inner else none, after,
        (gives_matchToken_true hts ht).bind ((gives_boundary (suffix_tail hts)).bind ?_),
        .inr ⟨_, if_pos ht, rfl, rfl⟩⟩
      cases atBoundary after <;> exact gives_pure _ after
    · have hopen : Gives sql list (matchToken (.mark .rightParen)) (t :: after) false _ :=
        gives_matchToken_false hts (mt ahead_kind_cons.1 ht)
      exact ⟨none, _, hopen.bind (gives_pure none _), .inl ⟨⟨_, if_neg ht⟩, rfl⟩⟩

include ih

/-- What is tried in brackets comes to the condition in them, or to nothing, and then the reader too
goes on as if there were no brackets. -/
theorem gives_group (hts : t :: after <:+ list.tokens) (ht : t.kind = .mark .leftParen)
    (hlimit : (t :: after).length ≤ limit) :
    ∃ result rest, Gives sql list group (t :: after) result rest ∧
      bare (readPrimary (t :: after)) =
        match result with
        | some inner => .ok (inner, rest)
        | none => bare (readSimple (t :: after)) := by
  have hafter := suffix_tail hts
  have hbegins : ¬ endsCondition t.kind = true := by rw [ht]; nofun
  have hinner := (ih after.length hlimit).condition after hafter (Nat.le_refl _)
  rw [readPrimary, if_neg hbegins, if_pos ht, group]
  generalize readCondition after = x at hinner
  cases hinner with
  | refused hrest hrefused =>
    have hcaught := hrefused.attempt
    exact ⟨none, _, (gives_advance hts).bind (Gives.bind hcaught (gives_pure none _)), rfl⟩
  | @value inner r hvalue =>
    have hcaught : Gives sql list predicate.attempt after (.ok inner) r.1 :=
      Comes.attempt hvalue
    obtain ⟨result, rest, hclosed, hread⟩ := gives_closed (r.2.trans hafter) inner
    refine ⟨result, rest, (gives_advance hts).bind (Gives.bind hcaught hclosed), ?_⟩
    obtain ⟨⟨e, he⟩, rfl⟩ | ⟨s, hs, rfl, rfl⟩ := hread
    · simp only [he]
    · simp only [hs]
      cases atBoundary s.1 <;> rfl

variable (h : Lexer.tokens sql = .ok list)

include h in
theorem follows_primary : Follows sql list limit primary readPrimary := by
  intro ts hts hlimit
  rw [primary]
  refine (gives_boundary hts).tracks ?_
  cases ts with
  | nil =>
    rw [readPrimary]
    exact tracks_fail hts _
  | cons t after =>
    rw [atBoundary]
    by_cases hends : endsCondition t.kind = true
    · rw [readPrimary, if_pos hends, if_pos hends]
      exact tracks_fail hts _
    · rw [if_neg hends]
      refine (gives_position _).tracks ((gives_current hts).tracks ?_)
      by_cases ht : t.kind = .mark .leftParen
      · rw [if_pos (ahead_kind_cons.2 ht)]
        obtain ⟨result, rest, hgroup, hread⟩ := gives_group ih hts ht hlimit
        refine hgroup.tracks ?_
        cases result with
        | some inner =>
          exact (gives_pure inner rest).tracks_of_bare hread
        | none => exact (gives_moveTo _ _).tracks ((tracks_simple h hts).congr hread.symm)
      · rw [readPrimary, if_neg hends, if_neg ht, if_neg (mt ahead_kind_cons.1 ht)]
        exact tracks_simple h hts

include h in
theorem follows_negation : Follows sql list limit negation readNegation := by
  intro ts hts hlimit
  refine Tracks.call ?_
  cases ts with
  | nil =>
    rw [readNegation]
    have hprimary := follows_primary ih h [] hts hlimit
    exact (gives_matchToken_false hts (ahead_kind_nil _)).tracks hprimary
  | cons t after =>
    by_cases ht : t.kind = .keyword .NOT
    · rw [readNegation, if_pos ht]
      have hnegation := (ih after.length hlimit).negation after (suffix_tail hts) (Nat.le_refl _)
      refine (gives_matchToken_true hts ht).tracks (hnegation.andThen (fun e he => by rw [he]) ?_)
      intro c r hr
      rw [hr]
      exact tracks_value (Condition.negation c) rfl
    · rw [readNegation, if_neg ht]
      refine (gives_matchToken_false hts (mt ahead_kind_cons.1 ht)).tracks ?_
      exact follows_primary ih h (t :: after) hts hlimit

end Condition

/-- The parsers of conditions follow their readers. -/
theorem conditionFollows (h : Lexer.tokens sql = .ok list) (limit : Nat) :
    ConditionFollows sql list limit := by
  induction limit using Nat.strongRecOn with
  | ind limit ih =>
    have hnegation := follows_negation ih h
    have hparts : Follows sql list limit _ readParts :=
      follows_furtherItems readParts_step fun less hless => (ih less hless).negation
    have hbranches : Follows sql list limit _ readBranches :=
      follows_furtherItems readBranches_step fun less hless => (ih less hless).conjunction
    have hconjunction : Follows sql list limit conjunction readConjunction := by
      intro ts hts hlimit
      rw [conjunction, readConjunction]
      have hmore := fun r : Rest ts =>
        hparts r.1 (r.2.trans hts) (Nat.le_trans r.length_le hlimit)
      exact (hnegation ts hts hlimit).joined hmore (fun e he => by rw [he])
        (fun a r e hr he => by simp only [hr, he]) fun a r as s hr hs => by simp only [hr, hs]; rfl
    have hcondition : Follows sql list limit predicate readCondition := by
      intro ts hts hlimit
      rw [readCondition]
      refine Tracks.call ?_
      have hmore := fun r : Rest ts =>
        hbranches r.1 (r.2.trans hts) (Nat.le_trans r.length_le hlimit)
      exact (hconjunction ts hts hlimit).joined hmore (fun e he => by rw [he])
        (fun a r e hr he => by simp only [hr, he]) fun a r as s hr hs => by simp only [hr, hs]; rfl
    exact ⟨hcondition, hconjunction, hnegation⟩

end SqlEngine.Cursor
