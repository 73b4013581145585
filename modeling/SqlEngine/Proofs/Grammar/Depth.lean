import SqlEngine.Proofs.Grammar.Brackets

/-!
# The depth of brackets

How deep in brackets the tokens of a list stand. A condition in no known form is skipped by counting
the depth and by one flag that says whether a BETWEEN waits for its AND. The flag is set by a
BETWEEN at any depth and taken away by an AND outside brackets only, so a BETWEEN in brackets that
has its AND beside it leaves the flag set.
-/
namespace SqlEngine.Grammar

/-- The depth behind some tokens, unless a bracket is closed that was not opened. -/
def depthAfter : Nat → List Token → Option Nat
  | depth, [] => some depth
  | depth, t :: ts =>
    match t.kind with
    | .mark .leftParen => depthAfter (depth + 1) ts
    | .mark .rightParen => if depth = 0 then none else depthAfter (depth - 1) ts
    | _ => depthAfter depth ts

/-- Every bracket among the tokens has its partner among them. -/
def Balanced (ts : List Token) : Prop := depthAfter 0 ts = some 0

instance (ts : List Token) : Decidable (Balanced ts) := inferInstanceAs (Decidable (_ = _))

/-- The tokens that stand outside brackets, without the brackets themselves. -/
def outside : Nat → List Token → List Token
  | _, [] => []
  | depth, t :: ts =>
    match t.kind with
    | .mark .leftParen => outside (depth + 1) ts
    | .mark .rightParen => outside (depth - 1) ts
    | _ => if depth = 0 then t :: outside depth ts else outside depth ts

section Depth

attribute [local simp] depthAfter outside

variable {t : Token} {depth : Nat}

theorem depthAfter_left (ht : t.kind = .mark .leftParen) (ts : List Token) :
    depthAfter depth (t :: ts) = depthAfter (depth + 1) ts := by
  simp [ht]

theorem depthAfter_right (ht : t.kind = .mark .rightParen) (ts : List Token) :
    depthAfter depth (t :: ts) = if depth = 0 then none else depthAfter (depth - 1) ts := by
  simp [ht]

theorem depthAfter_other (hleft : t.kind ≠ .mark .leftParen) (hright : t.kind ≠ .mark .rightParen)
    (ts : List Token) : depthAfter depth (t :: ts) = depthAfter depth ts := by
  rw [depthAfter.eq_def]
  dsimp only
  split
  · next h => exact absurd h hleft
  · next h => exact absurd h hright
  · rfl

theorem outside_left (ht : t.kind = .mark .leftParen) (ts : List Token) :
    outside depth (t :: ts) = outside (depth + 1) ts := by
  simp [ht]

theorem outside_right (ht : t.kind = .mark .rightParen) (ts : List Token) :
    outside depth (t :: ts) = outside (depth - 1) ts := by
  simp [ht]

theorem outside_other (hleft : t.kind ≠ .mark .leftParen) (hright : t.kind ≠ .mark .rightParen)
    (ts : List Token) :
    outside depth (t :: ts) = if depth = 0 then t :: outside depth ts else outside depth ts := by
  rw [outside.eq_def]
  dsimp only
  split
  · next h => exact absurd h hleft
  · next h => exact absurd h hright
  · rfl

theorem depthAfter_append (depth : Nat) (us vs : List Token) :
    depthAfter depth (us ++ vs) = (depthAfter depth us).bind (depthAfter · vs) := by
  induction us generalizing depth with
  | nil => rfl
  | cons t rest ih =>
    rw [List.cons_append, depthAfter, depthAfter]
    split
    · exact ih _
    · split
      · rfl
      · exact ih _
    · exact ih _

/-- Inside more brackets the depth is as much greater. -/
theorem depthAfter_add {ts : List Token} {stop : Nat} (h : depthAfter depth ts = some stop)
    (more : Nat) : depthAfter (depth + more) ts = some (stop + more) := by
  induction ts generalizing depth with
  | nil =>
    cases h
    rfl
  | cons t rest ih =>
    rw [depthAfter] at h ⊢
    split at h
    · rw [Nat.add_right_comm]
      exact ih h
    · split at h
      · cases h
      · next hdepth =>
        have hless : depth + more - 1 = depth - 1 + more := by omega
        rw [if_neg (by omega), hless]
        exact ih h
    · exact ih h

theorem outside_append {us : List Token} {stop : Nat} (h : depthAfter depth us = some stop)
    (vs : List Token) : outside depth (us ++ vs) = outside depth us ++ outside stop vs := by
  induction us generalizing depth with
  | nil =>
    cases h
    rfl
  | cons t rest ih =>
    rw [depthAfter] at h
    rw [List.cons_append, outside, outside]
    split at h
    · exact ih h
    · split at h
      · cases h
      · exact ih h
    · rw [ih h]
      split <;> rfl

/-- Inside a bracket nothing stands outside brackets. -/
theorem outside_deeper {ts : List Token} {stop : Nat} (h : depthAfter depth ts = some stop) :
    outside (depth + 1) ts = [] := by
  induction ts generalizing depth with
  | nil => rfl
  | cons t rest ih =>
    rw [depthAfter] at h
    rw [outside]
    split at h
    · exact ih h
    · split at h
      · cases h
      · next hopen =>
        have hless : depth + 1 - 1 = depth - 1 + 1 := by omega
        rw [hless]
        exact ih h
    · rw [if_neg (Nat.succ_ne_zero depth)]
      exact ih h

end Depth

theorem Balanced.cons {t : Token} {ts : List Token} (hleft : t.kind ≠ .mark .leftParen)
    (hright : t.kind ≠ .mark .rightParen) (h : Balanced ts) : Balanced (t :: ts) := by
  rw [Balanced, depthAfter_other hleft hright]
  exact h

theorem Balanced.append {ts us : List Token} (hts : Balanced ts) (hus : Balanced us) :
    Balanced (ts ++ us) := by
  rw [Balanced, depthAfter_append, hts]
  exact hus

theorem Balanced.bracketed {l r : Token} {ts : List Token} (hl : l.kind = .mark .leftParen)
    (h : Balanced ts) (hr : r.kind = .mark .rightParen) : Balanced (l :: ts ++ [r]) := by
  rw [Balanced, List.cons_append, depthAfter_left hl, depthAfter_append, depthAfter_add h 1,
    Option.bind_some, depthAfter_right hr]
  rfl

/-- Nothing between a bracket and the one that closes it stands outside brackets. -/
theorem outside_bracketed {l r : Token} {ts : List Token} (hl : l.kind = .mark .leftParen)
    (h : Balanced ts) (hr : r.kind = .mark .rightParen) : outside 0 (l :: ts ++ [r]) = [] := by
  rw [List.cons_append, outside_left hl, outside_append (depthAfter_add h 1), outside_deeper h,
    outside_right hr]
  rfl

/-- A token behind a balanced front stands outside brackets. -/
theorem mem_outside {front : List Token} (h : Balanced front) {t : Token}
    (hleft : t.kind ≠ .mark .leftParen) (hright : t.kind ≠ .mark .rightParen)
    (rest : List Token) : t ∈ outside 0 (front ++ t :: rest) := by
  rw [outside_append h, outside_other hleft hright, if_pos rfl]
  exact List.mem_append_right _ List.mem_cons_self

/-- No closing bracket follows a balanced front of balanced tokens. -/
theorem ne_rightParen_of_balanced {front rest : List Token} {t : Token} (hfront : Balanced front)
    (h : Balanced (front ++ t :: rest)) : t.kind ≠ .mark .rightParen := by
  intro ht
  rw [Balanced, depthAfter_append, hfront, Option.bind_some, depthAfter_right ht] at h
  cases h

/-- A BETWEEN stands among the tokens, in brackets or not. -/
def hasBetween (ts : List Token) : Bool := ts.any (·.kind = .keyword .BETWEEN)

theorem hasBetween_cons {t : Token} (ht : t.kind ≠ .keyword .BETWEEN) (ts : List Token) :
    hasBetween (t :: ts) = hasBetween ts := by
  rw [hasBetween, List.any_cons, decide_eq_false ht]
  rfl

/-- A condition in no known form takes tokens along that nothing outside brackets ends; the flag is
set behind them if it was before or if there is a BETWEEN among them. -/
theorem skip_inert {us : List Token} {depth stop : Nat} (hdepth : depthAfter depth us = some stop)
    (hsemicolon : ∀ t ∈ us, t.kind ≠ .mark .semicolon)
    (houtside : ∀ t ∈ outside depth us, endsCondition t.kind = false) (pending : Bool)
    (rest : List Token) :
    skipUnrecognized depth pending (us ++ rest) =
      us ++ skipUnrecognized stop (pending || hasBetween us) rest := by
  induction us generalizing depth pending with
  | nil =>
    cases hdepth
    rw [hasBetween, List.any_nil, Bool.or_false]
    rfl
  | cons t ts ih =>
    obtain ⟨hfirst, hts⟩ := List.forall_mem_cons.1 hsemicolon
    rw [List.cons_append, skipUnrecognized]
    by_cases hleft : t.kind = .mark .leftParen
    · rw [depthAfter_left hleft] at hdepth
      rw [outside_left hleft] at houtside
      rw [hasBetween_cons (by rw [hleft]; simp), hleft]
      exact congrArg _ (ih hdepth hts houtside pending)
    by_cases hright : t.kind = .mark .rightParen
    · rw [depthAfter_right hright] at hdepth
      rw [outside_right hright] at houtside
      rw [hasBetween_cons (by rw [hright]; simp), hright]
      split at hdepth
      · cases hdepth
      · next hopen =>
        dsimp only
        rw [if_neg hopen]
        exact congrArg _ (ih hdepth hts houtside pending)
    rw [depthAfter_other hleft hright] at hdepth
    rw [outside_other hleft hright] at houtside
    have hends : depth = 0 → endsCondition t.kind = false := by
      intro hzero
      rw [if_pos hzero] at houtside
      exact houtside t List.mem_cons_self
    have hrest : ∀ u ∈ outside depth ts, endsCondition u.kind = false := by
      intro u hu
      refine houtside u ?_
      split
      · exact List.mem_cons_of_mem t hu
      · exact hu
    split
    · next ht => exact absurd ht hfirst
    · next ht => exact absurd ht hleft
    · next ht => exact absurd ht hright
    · next ht =>
      have hbetween : hasBetween (t :: ts) = true := by
        rw [hasBetween, List.any_cons, decide_eq_true ht]
        rfl
      rw [ih hdepth hts hrest true, hbetween, Bool.true_or, Bool.or_true]
      rfl
    · next ht =>
      have hdeep : ¬ depth = 0 := by
        intro hzero
        have hnone := hends hzero
        rw [ht] at hnone
        cases hnone
      rw [if_neg hdeep, hasBetween_cons (by rw [ht]; simp)]
      exact congrArg _ (ih hdepth hts hrest pending)
    · next hbetween _ =>
      have hpassed : ¬ (decide (depth = 0) && endsCondition t.kind) = true := by
        by_cases hzero : depth = 0
        · rw [hends hzero, Bool.and_false]
          exact Bool.false_ne_true
        · rw [decide_eq_false hzero]
          exact Bool.false_ne_true
      rw [if_neg hpassed, hasBetween_cons hbetween]
      exact congrArg _ (ih hdepth hts hrest pending)

end SqlEngine.Grammar
