import SqlEngine.Condition.Eval
import SqlEngine.Grammar.Query
import SqlEngine.Proofs.Grammar.AtomReadBack
import SqlEngine.Proofs.Grammar.Taken

/-!
# A condition in no known form and its neighbour

A condition in no known form counts as true. Behind WHERE it may have a neighbour behind an AND, and
that neighbour is read as a condition of its own as long as no BETWEEN stands in the first one, not
even in brackets. A BETWEEN in brackets has its AND in brackets too, where it is not looked at: then
the AND in front of the neighbour is taken for it, and the neighbour becomes part of the condition
that counts as true.
-/
namespace SqlEngine.Grammar

theorem takes_optional_absent {kind : TokenKind} {rest : List Token} (h : NotAhead kind rest) :
    Takes (Reader.optional kind) [] false rest :=
  takes_none fun _ hother => reads_optional_absent (hother.forall_head h)

theorem taking_optional {kind : TokenKind} (hkind : passes kind = true) :
    Taking (Reader.optional kind) := by
  intro ts flag rest h
  rcases h.optional with ⟨rfl, t, rfl, ht⟩ | ⟨rfl, rfl, hnone⟩
  · exact ⟨[t], rfl, takes_token (by rw [ht]; exact hkind) (reads_optional ht) rest⟩
  · exact ⟨[], rfl, takes_optional_absent hnone⟩

theorem taking_keyword {word : Keyword} (hword : passes (.keyword word) = true) :
    Taking (Reader.keyword word) := by
  intro ts u rest h
  obtain ⟨t, rfl, ht⟩ := h.keyword
  exact ⟨[t], rfl, takes_token (by rw [ht]; exact hword) (reads_keyword ht) rest⟩

theorem taking_refuse {α : Type} (what : Complaint) : Taking (refuse what : Reader α) := by
  rintro ts a rest ⟨r, hr, -⟩
  cases hr

theorem passes_of_comparison {kind : TokenKind} {op : Comparison}
    (h : comparison? kind = some op) : passes kind = true := by
  cases kind with
  | mark m =>
    cases m with
    | leftParen | rightParen | semicolon => cases h
    | _ => rfl
  | _ => cases h

theorem taking_comparison : Taking readComparison := by
  rintro ts op _ ⟨r, hr, rfl⟩
  cases ts with
  | nil => cases hr
  | cons t after =>
    rw [readComparison] at hr
    split at hr
    · next found ht =>
      cases hr
      exact ⟨[t], rfl, takes_token (passes_of_comparison ht) (reads_comparison ht) after⟩
    · cases hr

/-- The list behind the word IN is taken with its brackets. -/
theorem taking_oneOf (subject : Expr) (negated : Bool) : Taking (readOneOf subject negated) := by
  intro ts c rest h
  obtain ⟨_, _, hleft, h⟩ := reads_bind.1 h
  obtain ⟨items, mid, hitems, h⟩ := reads_bind.1 h
  obtain ⟨_, _, hright, h⟩ := reads_bind.1 h
  obtain ⟨rfl, rfl⟩ := reads_pure.1 h
  obtain ⟨l, rfl, hl⟩ := hleft.mark
  obtain ⟨r, rfl, hr⟩ := hright.mark
  obtain ⟨us, rfl, htake⟩ := taking_exprs _ _ _ hitems
  refine ⟨l :: us ++ [r], by simp, htake.contained.bracketed hl hr, ?_⟩
  intro other _
  rw [List.append_assoc]
  refine reads_bind.2 ⟨(), _, reads_mark hl _, ?_⟩
  refine reads_bind.2 ⟨items, _, htake.reads (r :: other) (.inr rfl), ?_⟩
  exact reads_bind.2 ⟨(), _, reads_mark hr other, reads_pure.2 ⟨rfl, rfl⟩⟩

/-- A BETWEEN stands among the tokens outside brackets, with no AND in front of it. -/
def BetweenAhead (ts : List Token) : Prop :=
  ∃ before b after, ts = before ++ b :: after ∧ Contained before ∧ b.kind = .keyword .BETWEEN

/-- Whatever the reader reads, it takes, unless it comes to a BETWEEN. -/
def TakingToBetween {α : Type} (p : Reader α) : Prop :=
  ∀ ts a rest, Reads p ts a rest →
    (∃ taken, ts = taken ++ rest ∧ Takes p taken a rest) ∨ BetweenAhead ts

theorem Taking.toBetween {α : Type} {p : Reader α} (h : Taking p) : TakingToBetween p :=
  fun ts a rest hread => .inl (h ts a rest hread)

theorem Taking.bind_toBetween {α β : Type} {p : Reader α} {f : α → Reader β} (hp : Taking p)
    (hf : ∀ a, TakingToBetween (f a)) : TakingToBetween (p >>= f) := by
  intro ts b rest h
  obtain ⟨a, mid, hfirst, hsecond⟩ := reads_bind.1 h
  obtain ⟨ts, rfl, hts⟩ := hp _ a _ hfirst
  rcases hf a mid b rest hsecond with ⟨us, rfl, hus⟩ | ⟨us, t, after, rfl, hus, ht⟩
  · exact .inl ⟨ts ++ us, (List.append_assoc ts us rest).symm, hts.bind hus⟩
  · have hlist : ts ++ (us ++ t :: after) = ts ++ us ++ t :: after := by simp
    exact .inr ⟨ts ++ us, t, after, hlist, hts.contained.append hus, ht⟩

theorem taking_form (subject : Expr) (negated : Bool) :
    TakingToBetween (readForm subject negated) := by
  intro ts c rest h
  obtain ⟨flag, mid, hbetween, hform⟩ := reads_bind.1 h
  rcases hbetween.optional with ⟨rfl, b, rfl, hb⟩ | ⟨rfl, rfl, hnone⟩
  · exact .inr ⟨[], b, mid, rfl, contained_nil, hb⟩
  · have htaking : Taking (do
        if ← Reader.optional (.keyword .IN) then readOneOf subject negated
        else if ← Reader.optional (.keyword .LIKE) then readLike subject negated
        else if negated then refuse .expectedNegatable
        else
          let op ← readComparison
          return .compare op subject (← readExpr) : Reader Condition) := by
      refine (taking_optional rfl).bind fun isIn => ?_
      split
      · exact taking_oneOf subject negated
      refine (taking_optional rfl).bind fun isLike => ?_
      split
      · exact taking_expr.bind fun pattern => taking_pure _
      split
      · exact taking_refuse _
      · exact taking_comparison.bind fun op => taking_expr.bind fun right => taking_pure _
    obtain ⟨us, rfl, hus⟩ := htaking _ _ _ hform
    exact .inl ⟨us, rfl, (takes_optional_absent hnone).bind hus⟩

/-- A condition in one of the known forms is taken whole, or has a BETWEEN outside brackets. -/
theorem taking_atom : TakingToBetween readAtom := by
  refine taking_expr.bind_toBetween fun subject => ?_
  refine (taking_optional rfl).bind_toBetween fun isNull => ?_
  split
  · refine Taking.toBetween ?_
    exact (taking_optional rfl).bind fun negated => (taking_keyword rfl).bind fun _ => taking_pure _
  · exact (taking_optional rfl).bind_toBetween fun negated => taking_form subject negated

/-- The tokens are a condition in no known form: they do not begin like a longer condition, nothing
outside brackets ends them, and they cannot be read in one of the known forms. -/
structure Foreign (ts : List Token) : Prop where
  ne_nil : ts ≠ []
  not_negation : NotAhead (.keyword .NOT) ts
  not_bracketed : NotAhead (.mark .leftParen) ts
  balanced : Balanced ts
  no_semicolon : ∀ t ∈ ts, t.kind ≠ .mark .semicolon
  no_boundary : ∀ t ∈ outside 0 ts, endsCondition t.kind = false
  no_between : ∀ t ∈ outside 0 ts, t.kind ≠ .keyword .BETWEEN
  not_atom : ∀ c, ¬ Reads readAtom ts c []

section Foreign

variable {us : List Token} {a : Token}

/-- Tokens without an AND at the front of a text end in front of its AND at the latest. -/
theorem Contained.within {front rest behind : List Token} (h : Contained front)
    (ha : a.kind = .keyword .AND) (hlist : us ++ a :: behind = front ++ rest) :
    ∃ more, us = front ++ more ∧ rest = more ++ a :: behind := by
  rcases List.append_eq_append_iff.1 hlist with ⟨more, hfront, hbehind⟩ | ⟨more, hus, hrest⟩
  · cases more with
    | nil => exact ⟨[], by simpa using hfront.symm, hbehind.symm⟩
    | cons t more =>
      cases hbehind
      exact absurd ha (h.no_and a (by rw [hfront]; simp))
  · exact ⟨more, hus, hrest⟩

/-- A token of a condition in no known form, behind some with their brackets in pairs, is no
boundary and no BETWEEN. -/
theorem Foreign.ends_nothing (hus : Foreign us) {front more : List Token} {t : Token}
    (hlist : us = front ++ t :: more) (hfront : Balanced front) :
    endsCondition t.kind = false ∧ t.kind ≠ .keyword .BETWEEN := by
  have hbalanced := hus.balanced
  rw [hlist] at hbalanced
  have hright := ne_rightParen_of_balanced hfront hbalanced
  by_cases hleft : t.kind = .mark .leftParen
  · rw [hleft]
    exact ⟨rfl, by simp⟩
  · have hmem : t ∈ outside 0 us := by
      rw [hlist]
      exact mem_outside hfront hleft hright more
    exact ⟨hus.no_boundary t hmem, hus.no_between t hmem⟩

/-- A condition in one of the known forms that is read at the front of a condition in no known form
and an AND stops inside it, where no condition ends. -/
theorem Foreign.no_atom (hus : Foreign us) (ha : a.kind = .keyword .AND)
    {behind rest : List Token} {c : Condition} (h : Reads readAtom (us ++ a :: behind) c rest) :
    atBoundary rest = false := by
  rcases taking_atom _ _ _ h with ⟨taken, hlist, htake⟩ | ⟨before, b, after, hlist, hbefore, hb⟩
  · obtain ⟨more, htaken, rfl⟩ := htake.contained.within ha hlist
    cases more with
    | nil =>
      have hwhole := htake.reads [] (.inl rfl)
      rw [← htaken] at hwhole
      exact absurd hwhole (hus.not_atom c)
    | cons t more => exact (hus.ends_nothing htaken htake.contained.balanced).1
  · obtain ⟨more, htaken, hmore⟩ := hbefore.within ha hlist
    cases more with
    | nil =>
      cases hmore
      rw [ha] at hb
      cases hb
    | cons t more =>
      cases hmore
      exact absurd hb (hus.ends_nothing htaken hbefore.balanced).2

/-- A condition in no known form is taken over as it is, as far as it seems to go. -/
theorem Foreign.reads_negation (hus : Foreign us) (ha : a.kind = .keyword .AND)
    {behind rest : List Token} {c : Condition}
    (hc : Reads readUnrecognized (us ++ a :: behind) c rest) :
    Reads readNegation (us ++ a :: behind) c rest := by
  have hsimple := reads_simple_of_no_atom (fun _ _ h => hus.no_atom ha h) hc
  obtain ⟨t, ts, rfl⟩ := List.exists_cons_of_ne_nil hus.ne_nil
  refine reads_negation_of_primary hus.not_negation (hsimple.congr ?_)
  exact readPrimary_of_head (hus.ends_nothing (List.nil_append _).symm rfl).1
    (hus.not_bracketed t rfl)

/-- Without a BETWEEN, a condition in no known form ends at the AND behind it. -/
theorem Foreign.stops (hus : Foreign us) (hbetween : hasBetween us = false)
    (ha : a.kind = .keyword .AND) (behind : List Token) :
    Reads readNegation (us ++ a :: behind) (.unrecognized (Token.textOf us)) (a :: behind) := by
  refine hus.reads_negation ha (reads_unrecognized ?_)
  have hstop : skipUnrecognized 0 false (a :: behind) = [] := by
    rw [skipUnrecognized, ha]
    rfl
  rw [skip_inert hus.balanced hus.no_semicolon hus.no_boundary, hbetween, Bool.or_false, hstop,
    List.append_nil]

/-- With a BETWEEN, which stands in brackets, the AND behind the condition is taken along with what
follows it. -/
theorem Foreign.goes_on (hus : Foreign us) (hbetween : hasBetween us = true)
    (ha : a.kind = .keyword .AND) {qs rest : List Token}
    (hqs : skipUnrecognized 0 false (qs ++ rest) = qs) :
    Reads readNegation (us ++ a :: qs ++ rest) (.unrecognized (Token.textOf (us ++ a :: qs)))
      rest := by
  have hskip : skipUnrecognized 0 false (us ++ a :: qs ++ rest) = us ++ a :: qs := by
    have hpending : skipUnrecognized 0 true (a :: (qs ++ rest)) = a :: qs := by
      rw [skipUnrecognized, ha]
      exact congrArg _ hqs
    rw [List.append_assoc, List.cons_append,
      skip_inert hus.balanced hus.no_semicolon hus.no_boundary, hbetween, Bool.or_true, hpending]
  have hread := reads_unrecognized hskip
  rw [List.append_assoc, List.cons_append] at hread ⊢
  exact hus.reads_negation ha hread

end Foreign

/-- A function that does not exist cannot be called. -/
theorem refuses_unknown_call {t l : Token} {name : String} (ht : IsName t name)
    (hname : Function.ofName? name = none) (hl : l.kind = .mark .leftParen) (after : List Token) :
    Refuses readAtom (t :: l :: after) := by
  have hoperand :
      readOperand (t :: l :: after) = .error (.complaint l (.unknownFunction name)) := by
    rw [readOperand_of_isName ht]
    simp only [if_pos hl, hname]
  have hexpr : Refuses readExpr (t :: l :: after) := by
    refine ⟨.complaint l (.unknownFunction name), ?_⟩
    rw [readExpr, readExprFrom, hoperand]
  exact refuses_bind_left hexpr

/-- What looks like a call of a function that does not exist, such as EXISTS, is a condition in no
known form, whatever stands between its brackets. -/
theorem foreign_unknown_call {t l r : Token} {name : String} {inner : List Token}
    (ht : IsName t name) (hname : Function.ofName? name = none) (hl : l.kind = .mark .leftParen)
    (hinner : Balanced inner) (hsemicolon : ∀ u ∈ inner, u.kind ≠ .mark .semicolon)
    (hr : r.kind = .mark .rightParen) : Foreign (t :: (l :: inner ++ [r])) := by
  have hpass := passes_of_name ht.1
  have hleft : t.kind ≠ .mark .leftParen := ne_of_passes hpass rfl
  have hright : t.kind ≠ .mark .rightParen := ne_of_passes hpass rfl
  have houtside : outside 0 (t :: (l :: inner ++ [r])) = [t] := by
    rw [outside_other hleft hright, if_pos rfl, outside_bracketed hl hinner hr]
  constructor
  case ne_nil => simp
  case not_negation => exact notAhead_cons rfl (endsCondition_of_startsExpr ht.startsExpr).2
  case not_bracketed => exact notAhead_cons rfl hleft
  case balanced => exact (hinner.bracketed hl hr).cons hleft hright
  case no_semicolon =>
    intro u hu
    simp only [List.cons_append, List.mem_cons, List.mem_append, List.not_mem_nil, or_false] at hu
    rcases hu with rfl | rfl | hu | rfl
    · exact ne_of_passes hpass rfl
    · rw [hl]
      simp
    · exact hsemicolon u hu
    · rw [hr]
      simp
  case no_boundary =>
    rw [houtside]
    simpa using endsCondition_of_passes hpass
  case no_between =>
    rw [houtside]
    simpa using ne_of_passes hpass rfl
  case not_atom => exact fun c => (refuses_unknown_call ht hname hl (inner ++ [r])).not_reads

theorem reads_clause {α : Type} {word : Keyword} {body : Reader α} {w : Token}
    {ts rest : List Token} {x : α} (hw : w.kind = .keyword word) (hbody : Reads body ts x rest) :
    Reads (optionalClause word body) (w :: ts) (some x) rest :=
  reads_bind.2 ⟨true, ts, reads_optional hw ts, reads_bind.2 ⟨x, rest, hbody,
    reads_pure.2 ⟨rfl, rfl⟩⟩⟩

/-- Beside a condition that counts as true, the other one decides. -/
theorem holds_unrecognized_and (text : String) (q : Condition) (scope : Scope) :
    (Condition.conjunction [.unrecognized text, q]).holds scope = q.holds scope := by
  have hends : ∀ x : Except SqlError Bool,
      (do if ← x then Condition.allHold scope [] else return false) = x := by
    rintro (e | ⟨_ | _⟩) <;> rfl
  rw [Condition.holds, Condition.allHold, Condition.holds]
  exact hends (q.holds scope)

/-- A token as it is written behind a blank. -/
def spaced (kind : TokenKind) (text : String) : Token := ⟨kind, [' '], text.toList, .start⟩

/-- The tokens of EXISTS with something in brackets behind it. -/
def existsTokens (inner : List Token) : List Token :=
  spaced (.keyword .EXISTS) "EXISTS" ::
    (spaced (.mark .leftParen) "(" :: inner ++ [spaced (.mark .rightParen) ")"])

theorem foreign_exists {inner : List Token} (hinner : Balanced inner)
    (hsemicolon : ∀ u ∈ inner, u.kind ≠ .mark .semicolon) : Foreign (existsTokens inner) := by
  have hname : IsName (spaced (.keyword .EXISTS) "EXISTS") "EXISTS" := ⟨rfl, by simp [spaced]⟩
  have hunknown : Function.ofName? "EXISTS" = none := by decide +kernel
  exact foreign_unknown_call hname hunknown rfl hinner hsemicolon rfl

/-- The condition id IS NULL. -/
def idIsNull : Condition := .isNull (.column ⟨none, "id"⟩) false

/-- The tokens of id IS NULL. -/
def idIsNullTokens : List Token :=
  [spaced (.identifier "id") "id", spaced (.keyword .IS) "IS", spaced (.keyword .NULL) "NULL"]

theorem reads_idIsNull : Reads readNegation (idIsNullTokens ++ []) idIsNull [] := by
  have hname : IsName (spaced (.identifier "id") "id") "id" := ⟨rfl, by simp [spaced]⟩
  have hwritten : AtomWritten idIsNull idIsNullTokens := .isNull (.column hname) rfl .absent rfl
  exact hwritten.readNegation [] rfl

/-- The tokens of a AND b. -/
def bothTokens : List Token :=
  [spaced (.identifier "a") "a", spaced (.keyword .AND) "AND", spaced (.identifier "b") "b"]

/-- The tokens of a BETWEEN b AND c. -/
def betweenTokens : List Token :=
  [spaced (.identifier "a") "a", spaced (.keyword .BETWEEN) "BETWEEN",
    spaced (.identifier "b") "b", spaced (.keyword .AND) "AND", spaced (.identifier "c") "c"]

/-- Behind WHERE, a condition in no known form and without a BETWEEN is read up to the AND that
follows it, so the condition behind that AND is read as well, and it alone decides. -/
theorem foreign_spares_neighbour {w a : Token} {us qs rest : List Token} {q : Condition}
    (hw : w.kind = .keyword .WHERE) (hus : Foreign us) (hbetween : hasBetween us = false)
    (ha : a.kind = .keyword .AND) (hq : Reads readNegation (qs ++ rest) q rest)
    (hand : NotAhead (.keyword .AND) rest) (hor : NotAhead (.keyword .OR) rest) :
    Reads (optionalClause .WHERE readCondition) (w :: us ++ a :: qs ++ rest)
        (some (.conjunction [.unrecognized (Token.textOf us), q])) rest ∧
      ∀ scope, (Condition.conjunction [.unrecognized (Token.textOf us), q]).holds scope =
        q.holds scope := by
  have hparts : Reads readParts (a :: (qs ++ rest)) [q] rest :=
    reads_parts_more ha hq (reads_parts_stop hand)
  have hcondition : Reads readCondition (us ++ a :: (qs ++ rest))
      (.conjunction [.unrecognized (Token.textOf us), q]) rest :=
    reads_condition (reads_conjunction (hus.stops hbetween ha (qs ++ rest)) hparts)
      (reads_branches_stop hor)
  refine ⟨?_, fun scope => holds_unrecognized_and _ q scope⟩
  simpa using reads_clause hw hcondition

/-- In WHERE EXISTS (a AND b) AND id IS NULL, the AND in brackets is no boundary. -/
theorem foreign_spares_neighbour_exists :
    Foreign (existsTokens bothTokens) ∧ hasBetween (existsTokens bothTokens) = false ∧
      Reads readNegation (idIsNullTokens ++ []) idIsNull [] ∧
      Reads (optionalClause .WHERE readCondition)
        (spaced (.keyword .WHERE) "WHERE" :: existsTokens bothTokens ++
          spaced (.keyword .AND) "AND" :: idIsNullTokens ++ [])
        (some (.conjunction [.unrecognized "EXISTS ( a AND b )", idIsNull])) [] := by
  have hforeign : Foreign (existsTokens bothTokens) := foreign_exists (by decide) (by decide)
  have hbetween : hasBetween (existsTokens bothTokens) = false := by decide
  have hnone : ∀ kind, NotAhead kind [] := by rintro kind t ⟨⟩
  have hw : (spaced (.keyword .WHERE) "WHERE").kind = .keyword .WHERE := rfl
  have ha : (spaced (.keyword .AND) "AND").kind = .keyword .AND := rfl
  have hclause := foreign_spares_neighbour hw hforeign hbetween ha reads_idIsNull (hnone _)
    (hnone _)
  exact ⟨hforeign, hbetween, reads_idIsNull, hclause.1⟩

/-- In WHERE EXISTS (a BETWEEN b AND c) AND id IS NULL, the AND in front of id is taken for the one
that belongs to BETWEEN, and one condition that counts as true is all that is read. -/
theorem foreign_swallows_neighbour :
    Foreign (existsTokens betweenTokens) ∧
      Reads readNegation (idIsNullTokens ++ []) idIsNull [] ∧
      Reads (optionalClause .WHERE readCondition)
        (spaced (.keyword .WHERE) "WHERE" :: existsTokens betweenTokens ++
          spaced (.keyword .AND) "AND" :: idIsNullTokens ++ [])
        (some (.unrecognized "EXISTS ( a BETWEEN b AND c ) AND id IS NULL")) [] ∧
      ¬ Reads (optionalClause .WHERE readCondition)
        (spaced (.keyword .WHERE) "WHERE" :: existsTokens betweenTokens ++
          spaced (.keyword .AND) "AND" :: idIsNullTokens ++ [])
        (some (.conjunction [.unrecognized "EXISTS ( a BETWEEN b AND c )", idIsNull])) [] := by
  have hforeign : Foreign (existsTokens betweenTokens) := foreign_exists (by decide) (by decide)
  have hnone : ∀ kind, NotAhead kind [] := by rintro kind t ⟨⟩
  have ha : (spaced (.keyword .AND) "AND").kind = .keyword .AND := rfl
  have hskip : skipUnrecognized 0 false (idIsNullTokens ++ []) = idIsNullTokens := rfl
  have hnegation := hforeign.goes_on (by decide) ha hskip
  have hcondition := reads_condition_single hnegation (hnone _) (hnone _)
  have hw : (spaced (.keyword .WHERE) "WHERE").kind = .keyword .WHERE := rfl
  have hclause := reads_clause hw hcondition
  refine ⟨hforeign, reads_idIsNull, hclause, ?_⟩
  intro hclaimed
  cases (hclaimed.unique hclause).1

end SqlEngine.Grammar
