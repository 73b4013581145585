import SqlEngine.Proofs.Grammar.Depth
import SqlEngine.Proofs.Grammar.Writable

/-!
# What an expression takes

What is read of a text depends on the tokens that are taken and on the first one behind them. The
same is read where the text ends behind those tokens, or goes on in another way from the same first
token. The tokens of an expression hold their brackets in pairs, and no AND. The proofs follow the
recursion of the readers.
-/
namespace SqlEngine.Grammar

/-- The brackets among the tokens are in pairs, and no AND is among them. -/
structure Contained (ts : List Token) : Prop where
  balanced : Balanced ts
  no_and : ∀ t ∈ ts, t.kind ≠ .keyword .AND

theorem contained_nil : Contained [] := ⟨rfl, by simp⟩

theorem Contained.cons {t : Token} {ts : List Token} (ht : passes t.kind = true)
    (h : Contained ts) : Contained (t :: ts) :=
  ⟨h.balanced.cons (ne_of_passes ht rfl) (ne_of_passes ht rfl),
    List.forall_mem_cons.2 ⟨ne_of_passes ht rfl, h.no_and⟩⟩

theorem contained_single {t : Token} (ht : passes t.kind = true) : Contained [t] :=
  contained_nil.cons ht

theorem Contained.append {ts us : List Token} (hts : Contained ts) (hus : Contained us) :
    Contained (ts ++ us) :=
  ⟨hts.balanced.append hus.balanced, List.forall_mem_append.2 ⟨hts.no_and, hus.no_and⟩⟩

theorem Contained.bracketed {l r : Token} {ts : List Token} (hl : l.kind = .mark .leftParen)
    (h : Contained ts) (hr : r.kind = .mark .rightParen) : Contained (l :: ts ++ [r]) := by
  refine ⟨h.balanced.bracketed hl hr, ?_⟩
  intro t ht
  rw [List.cons_append, List.mem_cons, List.mem_append, List.mem_singleton] at ht
  rcases ht with rfl | ht | rfl
  · rw [hl]
    simp
  · exact h.no_and t ht
  · rw [hr]
    simp

theorem contained_optionally {word : Keyword} {flag : Bool} {ts : List Token}
    (h : Optionally word flag ts) (hword : passes (.keyword word) = true) : Contained ts := by
  cases h with
  | absent => exact contained_nil
  | present ht => exact contained_single (by rw [ht]; exact hword)

/-- The tokens go on as some others do, as far as the first one, or end. -/
def Resumes (other rest : List Token) : Prop := other = [] ∨ other.head? = rest.head?

theorem Resumes.append {other rest : List Token} (h : Resumes other rest) (ts : List Token) :
    Resumes (ts ++ other) (ts ++ rest) := by
  cases ts with
  | nil => exact h
  | cons t after => exact .inr rfl

/-- What holds of the first token of a text holds of the first token of one that resumes it. -/
theorem Resumes.forall_head {other rest : List Token} (h : Resumes other rest)
    {p : Token → Prop} (hrest : ∀ t ∈ rest.head?, p t) : ∀ t ∈ other.head?, p t := by
  rcases h with rfl | hhead
  · rintro t ⟨⟩
  · rw [hhead]
    exact hrest

variable {α β : Type}

/-- The reader takes these tokens, and takes them too from a text that resumes the rest. -/
structure Takes (p : Reader α) (taken : List Token) (a : α) (rest : List Token) : Prop where
  contained : Contained taken
  reads : ∀ other, Resumes other rest → Reads p (taken ++ other) a other

/-- A token that is read whatever follows it. -/
theorem takes_token {p : Reader α} {t : Token} {a : α} (ht : passes t.kind = true)
    (hp : ∀ other, Reads p (t :: other) a other) (rest : List Token) : Takes p [t] a rest :=
  ⟨contained_single ht, fun other _ => hp other⟩

theorem takes_none {p : Reader α} {a : α} {rest : List Token}
    (hp : ∀ other, Resumes other rest → Reads p other a other) : Takes p [] a rest :=
  ⟨contained_nil, hp⟩

/-- Two readers one after the other take what each of them takes. -/
theorem Takes.bind {p : Reader α} {f : α → Reader β} {ts us rest : List Token} {a : α} {b : β}
    (hp : Takes p ts a (us ++ rest)) (hf : Takes (f a) us b rest) :
    Takes (p >>= f) (ts ++ us) b rest := by
  refine ⟨hp.contained.append hf.contained, ?_⟩
  intro other hother
  rw [List.append_assoc]
  exact reads_bind.2 ⟨a, us ++ other, hp.reads _ (hother.append us), hf.reads other hother⟩

/-- Whatever the reader reads, it takes. -/
def Taking (p : Reader α) : Prop :=
  ∀ ts a rest, Reads p ts a rest → ∃ taken, ts = taken ++ rest ∧ Takes p taken a rest

theorem taking_pure (a : α) : Taking (pure a) := by
  intro ts b rest h
  obtain ⟨rfl, rfl⟩ := reads_pure.1 h
  exact ⟨[], rfl, takes_none fun other _ => reads_pure.2 ⟨rfl, rfl⟩⟩

theorem Taking.bind {p : Reader α} {f : α → Reader β} (hp : Taking p) (hf : ∀ a, Taking (f a)) :
    Taking (p >>= f) := by
  intro ts b rest h
  obtain ⟨a, mid, hfirst, hsecond⟩ := reads_bind.1 h
  obtain ⟨us, rfl, hus⟩ := hf a mid b rest hsecond
  obtain ⟨ts, rfl, hts⟩ := hp _ a _ hfirst
  exact ⟨ts ++ us, (List.append_assoc ts us rest).symm, hts.bind hus⟩

/-- The word DISTINCT at the front of the arguments is taken, if it may stand there. -/
theorem readDistinct_split {f : Function} {distinct : Bool} {ts : List Token} {start : Rest ts}
    (h : readDistinct f ts = (distinct, start)) :
    ∃ ds, ts = ds ++ start.1 ∧ Optionally .DISTINCT distinct ds := by
  rw [readDistinct.eq_def] at h
  split at h
  · cases h
    exact ⟨[], rfl, .absent⟩
  · next t after =>
    split at h
    · next hcount =>
      simp only [Bool.and_eq_true, decide_eq_true_eq] at hcount
      cases h
      exact ⟨[t], rfl, .present hcount.2⟩
    · cases h
      exact ⟨[], rfl, .absent⟩

/-- No list of arguments begins with the word DISTINCT. -/
theorem Reads.ne_distinct {f : Function} {ts rest : List Token} {es : List Expr}
    (h : Reads (readArgumentList f) ts es rest) :
    ∀ t ∈ ts.head?, t.kind ≠ .keyword .DISTINCT := by
  cases ts with
  | nil => rintro t ⟨⟩
  | cons t after =>
    rintro _ ⟨⟩ ht
    obtain ⟨r, hr, -⟩ := h
    have hname : t.name? = none := by
      rw [Token.name?, ht]
      rfl
    rw [readArgumentList, if_neg (by rw [ht]; decide), if_neg (by rw [ht]; decide), readExprs,
      readExprFrom, readOperand, ht] at hr
    simp only [hname] at hr
    cases hr

theorem ahead_endsOperand_of_ne {u : Token} {rest : List Token} (hcall : u.kind ≠ .mark .leftParen)
    (hpoint : u.kind ≠ .mark .dot) : Ahead endsOperand (u :: rest) := by
  rintro t ⟨⟩
  rw [endsOperand.eq_def]
  split
  · next h => exact absurd h hcall
  · next h => exact absurd h hpoint
  · rfl

section Phrases

variable {t l r : Token} {floor : Nat} {op : Operator} {name table : String} {f : Function}
  {e left right whole : Expr} {es : List Expr} {us vs mid rest : List Token}

theorem append_split {ts : List Token} (h : ts = us ++ mid) (hmid : mid = vs ++ rest) :
    ts = us ++ vs ++ rest := by
  rw [h, hmid, List.append_assoc]

/-- An operand is taken with the operators behind it. -/
theorem Takes.exprFrom (hleft : Takes readOperand us left mid) (hmid : mid = vs ++ rest)
    (hwhole : Takes (readOperators floor left) vs whole rest) :
    Takes (readExprFrom floor) (us ++ vs) whole rest := by
  subst hmid
  refine ⟨hleft.contained.append hwhole.contained, ?_⟩
  intro other hother
  rw [List.append_assoc]
  exact reads_exprFrom (hleft.reads _ (hother.append vs)) (hwhole.reads other hother)

theorem takes_operators_loose
    (hrest : ∀ t ∈ rest.head?, ∀ op, operator? t.kind = some op → op.precedence < floor) :
    Takes (readOperators floor left) [] left rest :=
  takes_none fun _ hother => reads_operators_loose (hother.forall_head hrest)

/-- An operator is taken with its right side and the operators behind it. -/
theorem Takes.operators_step (hop : operator? t.kind = some op) (hfloor : floor ≤ op.precedence)
    (hright : Takes (readExprFrom (op.precedence + 1)) us right mid) (hmid : mid = vs ++ rest)
    (hwhole : Takes (readOperators floor (.binary op left right)) vs whole rest) :
    Takes (readOperators floor left) (t :: (us ++ vs)) whole rest := by
  subst hmid
  refine ⟨(hright.contained.append hwhole.contained).cons (passes_of_operator hop), ?_⟩
  intro other hother
  rw [List.cons_append, List.append_assoc]
  exact reads_operators_step hop hfloor (hright.reads _ (hother.append vs))
    (hwhole.reads other hother)

theorem Takes.negated (ht : t.kind = .mark .minus) (he : Takes readOperand us e rest) :
    Takes readOperand (t :: us) (negated e) rest :=
  ⟨he.contained.cons (by rw [ht]; rfl), fun other hother =>
    reads_negated ht (he.reads other hother)⟩

theorem Takes.plus (ht : t.kind = .mark .plus) (he : Takes readOperand us e rest) :
    Takes readOperand (t :: us) e rest :=
  ⟨he.contained.cons (by rw [ht]; rfl), fun other hother =>
    reads_plus ht (he.reads other hother)⟩

theorem Takes.bracketed (hl : l.kind = .mark .leftParen) (he : Takes (readExprFrom 0) us e mid)
    (hmid : mid = r :: rest) (hr : r.kind = .mark .rightParen) :
    Takes readOperand (l :: us ++ [r]) e rest := by
  subst hmid
  refine ⟨he.contained.bracketed hl hr, ?_⟩
  intro other _
  rw [List.append_assoc]
  exact reads_bracketed hl hr (he.reads (r :: other) (.inr rfl))

theorem takes_column (ht : IsName t name) (hrest : Ahead endsOperand rest) :
    Takes readOperand [t] (.column ⟨none, name⟩) rest :=
  ⟨contained_single (passes_of_name ht.1), fun _ hother =>
    reads_column ht (hother.forall_head hrest)⟩

theorem takes_qualified {d u : Token} (ht : IsName t table) (hd : d.kind = .mark .dot)
    (hu : u.name? = some name) :
    Takes readOperand [t, d, u] (.column ⟨some (Text.lower table), name⟩) rest := by
  have hcontained : Contained [d, u] :=
    (contained_single (passes_of_name hu)).cons (by rw [hd]; rfl)
  exact ⟨hcontained.cons (passes_of_name ht.1), fun other _ => reads_qualified ht hd hu other⟩

theorem takes_call (ht : IsName t name) (hf : Function.ofName? name = some f)
    (hl : l.kind = .mark .leftParen) (hus : Contained us) (hr : r.kind = .mark .rightParen)
    (hcall : ∀ other, Reads (readArguments f) (us ++ r :: other) e other) :
    Takes readOperand (t :: (l :: us ++ [r])) e rest := by
  refine ⟨(hus.bracketed hl hr).cons (passes_of_name ht.1), ?_⟩
  intro other _
  rw [List.cons_append, List.append_assoc]
  exact reads_call ht hf hl (hcall other)

theorem Takes.single (he : Takes (readExprFrom 0) us e rest)
    (hrest : ∀ t ∈ rest.head?, t.kind ≠ .mark .comma) : Takes readExprs us [e] rest :=
  ⟨he.contained, fun other hother =>
    reads_single (hother.forall_head hrest) (he.reads other hother)⟩

theorem Takes.more (he : Takes (readExprFrom 0) us e mid) (hmid : mid = t :: (vs ++ rest))
    (ht : t.kind = .mark .comma) (hes : Takes readExprs vs es rest) :
    Takes readExprs (us ++ t :: vs) (e :: es) rest := by
  subst hmid
  refine ⟨he.contained.append (hes.contained.cons (by rw [ht]; rfl)), ?_⟩
  intro other hother
  rw [List.append_assoc]
  exact reads_more (he.reads (t :: (vs ++ other)) (.inr rfl)) ht (hes.reads other hother)

end Phrases

mutual

theorem taken_of_readExprFrom (floor : Nat) (ts : List Token) {e : Expr} {rest : Rest ts}
    (h : readExprFrom floor ts = .ok (e, rest)) :
    ∃ taken, ts = taken ++ rest.1 ∧ Takes (readExprFrom floor) taken e rest.1 := by
  rw [readExprFrom] at h
  split at h
  · cases h
  · next left r hleft =>
    split at h
    · cases h
    · next whole s hwhole =>
      cases h
      have hle := r.length_le
      obtain ⟨us, hus, htakeleft⟩ := taken_of_readOperand ts hleft
      obtain ⟨vs, hvs, htakewhole⟩ := taken_of_readOperators floor left r.1 hwhole
      exact ⟨us ++ vs, append_split hus hvs, htakeleft.exprFrom hvs htakewhole⟩
termination_by 4 * ts.length + 2

theorem taken_of_readOperators (floor : Nat) (left : Expr) :
    (ts : List Token) → {e : Expr} → {rest : Rest ts} →
      readOperators floor left ts = .ok (e, rest) →
        ∃ taken, ts = taken ++ rest.1 ∧ Takes (readOperators floor left) taken e rest.1
  | [], _, _, h => by
    rw [readOperators] at h
    cases h
    exact ⟨[], rfl, takes_operators_loose (by rintro t ⟨⟩)⟩
  | t :: after, _, _, h => by
    rw [readOperators] at h
    split at h
    · next hop =>
      cases h
      refine ⟨[], rfl, takes_operators_loose ?_⟩
      rintro u ⟨⟩ op hu
      rw [hop] at hu
      cases hu
    · next op hop =>
      split at h
      · next hloose =>
        cases h
        refine ⟨[], rfl, takes_operators_loose ?_⟩
        rintro u ⟨⟩ op' hu
        rw [hop] at hu
        cases hu
        exact hloose
      · next hfloor =>
        split at h
        · cases h
        · next right r hright =>
          split at h
          · cases h
          · next whole s hwhole =>
            cases h
            have hle := r.length_le
            obtain ⟨us, hus, htakeright⟩ := taken_of_readExprFrom (op.precedence + 1) after hright
            obtain ⟨vs, hvs, htakewhole⟩ :=
              taken_of_readOperators floor (.binary op left right) r.1 hwhole
            exact ⟨t :: (us ++ vs), congrArg (t :: ·) (append_split hus hvs),
              htakeright.operators_step hop (Nat.le_of_not_lt hfloor) hvs htakewhole⟩
termination_by ts => 4 * ts.length

theorem taken_of_readOperand :
    (ts : List Token) → {e : Expr} → {rest : Rest ts} → readOperand ts = .ok (e, rest) →
      ∃ taken, ts = taken ++ rest.1 ∧ Takes readOperand taken e rest.1
  | [], _, _, h => by
    rw [readOperand] at h
    cases h
  | t :: after, _, _, h => by
    rw [readOperand] at h
    split at h
    · next hminus =>
      split at h
      · cases h
      · next operand r hoperand =>
        cases h
        obtain ⟨us, hus, htake⟩ := taken_of_readOperand after hoperand
        exact ⟨t :: us, congrArg (t :: ·) hus, htake.negated hminus⟩
    · next hplus =>
      split at h
      · cases h
      · next operand r hoperand =>
        cases h
        obtain ⟨us, hus, htake⟩ := taken_of_readOperand after hoperand
        exact ⟨t :: us, congrArg (t :: ·) hus, htake.plus hplus⟩
    · next hleft =>
      split at h
      · cases h
      · next inner r hinner =>
        split at h
        · cases h
        · next s hclose =>
          cases h
          obtain ⟨us, hus, htake⟩ := taken_of_readExprFrom 0 after hinner
          obtain ⟨c, hc, hright⟩ := Reads.mark ⟨s, hclose, rfl⟩
          exact ⟨t :: (us ++ [c]), congrArg (t :: ·) (append_split hus hc),
            htake.bracketed hleft hc hright⟩
    · next hnumber =>
      cases h
      exact ⟨[t], rfl, takes_token (by rw [hnumber]; rfl) (reads_number hnumber) after⟩
    · next htext =>
      cases h
      exact ⟨[t], rfl, takes_token (by rw [htext]; rfl) (reads_text htext) after⟩
    · next hnull =>
      cases h
      exact ⟨[t], rfl, takes_token (by rw [hnull]; rfl) (reads_null hnull) after⟩
    · next hstring _ =>
      split at h
      · cases h
      · next name hname =>
        have ht : IsName t name := ⟨hname, hstring⟩
        split at h
        · cases h
          exact ⟨[t], rfl, takes_column ht (by rintro u ⟨⟩)⟩
        · next u behind _ =>
          split at h
          · next hleft =>
            split at h
            · cases h
            · next f hf =>
              split at h
              · cases h
              · next call r hcall =>
                cases h
                obtain ⟨us, c, hus, hcontained, hright, hread⟩ :=
                  taken_of_readArguments f behind hcall
                have hlist : behind = us ++ [c] ++ r.1 := append_split hus rfl
                exact ⟨t :: u :: (us ++ [c]), congrArg (t :: u :: ·) hlist,
                  takes_call ht hf hleft hcontained hright hread⟩
          · next hcall =>
            split at h
            · next hdot =>
              split at h
              · cases h
              · next column r hcolumn =>
                cases h
                obtain ⟨c, hc, hcname⟩ := Reads.identifier ⟨r, hcolumn, rfl⟩
                exact ⟨[t, u, c], congrArg (t :: u :: ·) hc, takes_qualified ht hdot hcname⟩
            · next hpoint =>
              cases h
              exact ⟨[t], rfl, takes_column ht (ahead_endsOperand_of_ne hcall hpoint)⟩
termination_by ts => 4 * ts.length + 1

theorem taken_of_readArguments (f : Function) (ts : List Token) {call : Expr} {rest : Rest ts}
    (h : readArguments f ts = .ok (call, rest)) :
    ∃ inner r, ts = inner ++ r :: rest.1 ∧ Contained inner ∧ r.kind = .mark .rightParen ∧
      ∀ other, Reads (readArguments f) (inner ++ r :: other) call other := by
  rw [readArguments] at h
  split at h
  next distinct start hstart =>
    split at h
    · cases h
    · next es r hes =>
      split at h
      · cases h
      · next s hclose =>
        split at h
        · cases h
        · next whole hcall =>
          cases h
          have hle := start.length_le
          obtain ⟨ds, hds, hoptionally⟩ := readDistinct_split hstart
          obtain ⟨us, hus, hcontained, hread⟩ := taken_of_readArgumentList f start.1 hes
          obtain ⟨c, hc, hright⟩ := Reads.mark ⟨s, hclose, rfl⟩
          have hlist : start.1 = us ++ c :: s.1 := hus.trans (congrArg _ hc)
          refine ⟨ds ++ us, c, append_split hds hlist,
            (contained_optionally hoptionally rfl).append hcontained, hright, ?_⟩
          intro other
          have harguments := hread (c :: other) (by rw [hc]; rfl)
          have hcount : distinct = true → f = .count := by
            rintro rfl
            exact readDistinct_count hstart
          rw [callOf] at hcall
          split at hcall
          · next htakes =>
            cases hcall
            rw [List.append_assoc]
            exact reads_arguments hcount hoptionally harguments.ne_distinct harguments htakes hright
          · cases hcall
termination_by 4 * ts.length + 5

theorem taken_of_readArgumentList (f : Function) :
    (ts : List Token) → {es : List Expr} → {rest : Rest ts} →
      readArgumentList f ts = .ok (es, rest) →
        ∃ taken, ts = taken ++ rest.1 ∧ Contained taken ∧
          ∀ other, other.head? = rest.1.head? → Reads (readArgumentList f) (taken ++ other) es other
  | [], _, _, h => by
    rw [readArgumentList, readExprs, readExprFrom, readOperand] at h
    cases h
  | t :: after, _, _, h => by
    rw [readArgumentList] at h
    split at h
    · next hstar =>
      split at h
      · next hcount =>
        cases h
        rw [hcount]
        refine ⟨[t], rfl, contained_single (by rw [hstar]; rfl), ?_⟩
        exact fun other _ => reads_star hstar other
      · cases h
    · next hstar =>
      split at h
      · next hclose =>
        cases h
        refine ⟨[], rfl, contained_nil, ?_⟩
        intro other hother
        obtain ⟨_, rfl⟩ := List.head?_eq_some_iff.1 hother
        exact reads_argumentList_none hclose _
      · next hclose =>
        obtain ⟨us, hus, htake⟩ := taken_of_readExprs (t :: after) h
        refine ⟨us, hus, htake.contained, ?_⟩
        intro other hother
        refine reads_argumentList ?_ (htake.reads other (.inr hother))
        refine Resumes.forall_head (Resumes.append (.inr hother) us) ?_
        rw [← hus]
        rintro u ⟨⟩
        exact ⟨hstar, hclose⟩
termination_by ts => 4 * ts.length + 4

theorem taken_of_readExprs (ts : List Token) {es : List Expr} {rest : Rest ts}
    (h : readExprs ts = .ok (es, rest)) :
    ∃ taken, ts = taken ++ rest.1 ∧ Takes readExprs taken es rest.1 := by
  rw [readExprs] at h
  split at h
  · cases h
  · next e r he =>
    obtain ⟨us, hus, htake⟩ := taken_of_readExprFrom 0 ts he
    split at h
    · next hr =>
      cases h
      exact ⟨us, hus, htake.single (by rw [hr]; rintro t ⟨⟩)⟩
    · next t after hr =>
      split at h
      · next hcomma =>
        split at h
        · cases h
        · next es s hes =>
          cases h
          have hlt : after.length < ts.length := by
            have hle := r.length_le
            rw [hr, List.length_cons] at hle
            omega
          obtain ⟨vs, hvs, htakerest⟩ := taken_of_readExprs after hes
          have hlist : r.1 = t :: (vs ++ s.1) := hr.trans (congrArg _ hvs)
          exact ⟨us ++ t :: vs, append_split hus hlist, htake.more hlist hcomma htakerest⟩
      · next hcomma =>
        cases h
        refine ⟨us, hus, htake.single ?_⟩
        rw [hr]
        rintro u ⟨⟩
        exact hcomma
termination_by 4 * ts.length + 3

end

theorem taking_expr : Taking readExpr := by
  rintro ts e _ ⟨r, hr, rfl⟩
  exact taken_of_readExprFrom 0 ts hr

theorem taking_exprs : Taking readExprs := by
  rintro ts es _ ⟨r, hr, rfl⟩
  exact taken_of_readExprs ts hr

end SqlEngine.Grammar
