import SqlEngine.Proofs.Cursor.Condition
import SqlEngine.Proofs.Token.Thinning

/-!
# Readings of tokens that are alike

A reader looks at the kinds of tokens and at their own characters. What was skipped between two of
them shows in one thing only, the text of a condition in no known form, and where it would show in
the text of an item of a select list, the text is collapsed. So tokens that are alike are read
alike. This is kept by putting readers one after another and is shown for the grammar rule by rule.
-/
namespace SqlEngine

theorem Token.Alike.text {t u : Token} (h : t.Alike u) : u.text = t.text := by
  rw [Token.text, Token.text, h.lexeme]

theorem Token.Alike.name? {t u : Token} (h : t.Alike u) : u.name? = t.name? := by
  rw [Token.name?, Token.name?, h.kind, h.text]

namespace Grammar

open Cursor (bind_eq_followedBy furtherStep readArguments_eq)

/-- The tokens are alike one by one. -/
abbrev Alike (ts us : List Token) : Prop := List.Forall₂ Token.Alike ts us

/-- Both readings fail, or what they read is related and what they leave is alike. -/
inductive Agree {α β : Type} (R : α → β → Prop) {ts us : List Token} :
    Reading α ts → Reading β us → Prop
  | refused (e e' : Refusal) : Agree R (.error e) (.error e')
  | read {a : α} {b : β} {r : Rest ts} {s : Rest us} (hab : R a b) (hrest : Alike r.1 s.1) :
      Agree R (.ok (a, r)) (.ok (b, s))

/-- From tokens that are alike, `limit` of them at most, the readers read related things. -/
def Even {α β : Type} (limit : Nat) (R : α → β → Prop) (p : Reader α) (q : Reader β) : Prop :=
  ∀ ts us, Alike ts us → ts.length ≤ limit → Agree R (p ts) (q us)

section Sequence

variable {α β γ δ : Type} {R : α → β → Prop} {S : γ → δ → Prop} {ts us : List Token}
  {limit : Nat} {x : Reading α ts} {y : Reading β us}

theorem Agree.under {vs ws : List Token} {r : Rest vs} {s : Rest ws} {x : Reading α r.1}
    {y : Reading β s.1} (h : Agree R x y) : Agree R (x.under r) (y.under s) := by
  cases h with
  | refused e e' => exact .refused e e'
  | read hab hrest => exact .read hab hrest

theorem Agree.behind {t u : Token} (h : Agree R x y) : Agree R (x.behind t) (y.behind u) := h.under

/-- A first reading and what is read of the tokens that it leaves. -/
theorem Agree.followedBy {next : α → (vs : List Token) → Reading γ vs}
    {next' : β → (vs : List Token) → Reading δ vs} (h : Agree R x y)
    (hnext : ∀ a b (r : Rest ts) (s : Rest us), R a b → Alike r.1 s.1 →
      Agree S (next a r.1) (next' b s.1)) :
    Agree S (x.followedBy next) (y.followedBy next') := by
  cases h with
  | refused e e' => exact .refused e e'
  | read hab hrest => exact (hnext _ _ _ _ hab hrest).under

/-- Both readings fail, or both succeed. -/
theorem Agree.cases (h : Agree R x y) :
    (∃ e e', x = .error e ∧ y = .error e') ∨
      ∃ a b r s, x = .ok (a, r) ∧ y = .ok (b, s) ∧ R a b ∧ Alike r.1 s.1 := by
  cases h with
  | refused e e' => exact .inl ⟨e, e', rfl, rfl⟩
  | read hab hrest => exact .inr ⟨_, _, _, _, rfl, rfl, hab, hrest⟩

theorem Even.bind {p : Reader α} {q : Reader β} {f : α → Reader γ} {g : β → Reader δ}
    (h : Even limit R p q) (hfg : ∀ a b, R a b → Even limit S (f a) (g b)) :
    Even limit S (p >>= f) (q >>= g) := by
  intro ts us hts hlimit
  rw [bind_eq_followedBy, bind_eq_followedBy]
  refine (h ts us hts hlimit).followedBy fun a b r s hab hrest => ?_
  exact hfg a b hab r.1 s.1 hrest (Nat.le_trans r.length_le hlimit)

/-- A first reader that reads the same thing. -/
theorem Even.same {p q : Reader α} {f : α → Reader γ} {g : α → Reader δ} (h : Even limit Eq p q)
    (hfg : ∀ a, Even limit S (f a) (g a)) : Even limit S (p >>= f) (q >>= g) := by
  refine h.bind ?_
  rintro a _ rfl
  exact hfg a

theorem even_pure {a : α} {b : β} (h : R a b) : Even limit R (pure a) (pure b) :=
  fun _ _ hts _ => .read h hts

theorem Even.ite {c : Prop} [Decidable c] {p p' : Reader α} {q q' : Reader β}
    (h : Even limit R p q) (h' : Even limit R p' q') :
    Even limit R (if c then p else p') (if c then q else q') := by
  split
  · exact h
  · exact h'

theorem even_refuse (what what' : Complaint) : Even limit R (refuse what) (refuse what') :=
  fun _ _ _ _ => .refused _ _

theorem even_ahead : Even limit Alike Reader.ahead Reader.ahead := fun _ _ hts _ => .read hts hts

theorem even_optional (kind : TokenKind) :
    Even limit Eq (Reader.optional kind) (Reader.optional kind) := by
  intro ts us hts _
  cases hts with
  | nil => exact .read rfl .nil
  | cons ht hrest =>
    rw [Reader.optional, Reader.optional, ht.kind]
    split
    · exact .read rfl hrest
    · exact .read rfl (.cons ht hrest)

theorem even_keyword (word : Keyword) :
    Even limit Eq (Reader.keyword word) (Reader.keyword word) := by
  intro ts us hts _
  cases hts with
  | nil => exact .refused _ _
  | cons ht hrest =>
    rw [Reader.keyword, Reader.keyword, ht.kind]
    split
    · exact .read rfl hrest
    · exact .refused _ _

theorem even_mark (m : Mark) : Even limit Eq (Reader.mark m) (Reader.mark m) := by
  intro ts us hts _
  cases hts with
  | nil => exact .refused _ _
  | cons ht hrest =>
    rw [Reader.mark, Reader.mark, ht.kind]
    split
    · exact .read rfl hrest
    · exact .refused _ _

theorem even_identifier : Even limit Eq Reader.identifier Reader.identifier := by
  intro ts us hts _
  cases hts with
  | nil => exact .refused _ _
  | cons ht hrest =>
    rw [Reader.identifier, Reader.identifier, ht.name?]
    split
    · exact .read rfl hrest
    · exact .refused _ _

theorem even_name : Even limit Eq Reader.name Reader.name :=
  even_identifier.same fun _ => even_pure rfl

theorem Alike.startsName (h : Alike ts us) : Reader.startsName us = Reader.startsName ts := by
  cases h with
  | nil => rfl
  | cons ht hrest => rw [Reader.startsName, Reader.startsName, ht.name?]

theorem Alike.startsWith (h : Alike ts us) (kind : TokenKind) :
    Grammar.startsWith kind us = Grammar.startsWith kind ts := by
  cases h with
  | nil => rfl
  | cons ht hrest => rw [Grammar.startsWith, Grammar.startsWith, ht.kind]

theorem furtherStep_cons (separator : TokenKind) (p : Reader α) (q : Reader (List α)) (t : Token)
    (ts : List Token) :
    furtherStep separator p q (t :: ts) =
      if t.kind = separator then
        ((do return (← p) :: (← q) : Reader (List α)) ts).behind t
      else .ok ([], .whole _) := by
  rw [furtherStep]
  split
  · rw [bind_eq_followedBy]
    cases p ts with
    | error e => rfl
    | ok read =>
      obtain ⟨a, r⟩ := read
      simp only [Reading.followedBy, bind_eq_followedBy]
      cases q r.1 <;> rfl
  · rfl

/-- Readers that go on by themselves behind a separator. -/
theorem even_furtherItems {separator : TokenKind} {p : Reader α} {p' : Reader β}
    {q : Reader (List α)} {q' : Reader (List β)}
    (hq : ∀ ts, q ts = furtherStep separator p q ts)
    (hq' : ∀ ts, q' ts = furtherStep separator p' q' ts)
    (hitem : ∀ less < limit, Even less R p p') : Even limit (List.Forall₂ R) q q' := by
  induction limit using Nat.strongRecOn with
  | ind limit ih =>
    intro ts us hts hlimit
    rw [hq, hq']
    cases hts with
    | nil => exact .read .nil .nil
    | @cons t u after after' ht hrest =>
      rw [furtherStep_cons, furtherStep_cons, ht.kind]
      split
      · have hless : after.length < limit := hlimit
        have hmore := ih after.length hless fun less h => hitem less (Nat.lt_trans h hless)
        have hboth : Even after.length (List.Forall₂ R) (do return (← p) :: (← q))
            (do return (← p') :: (← q')) :=
          (hitem _ hless).bind fun a b hab => hmore.bind fun as bs habs =>
            even_pure (.cons hab habs)
        exact (hboth after after' hrest (Nat.le_refl _)).behind
      · exact .read .nil (.cons ht hrest)

theorem even_separated (separator : TokenKind) {p : Reader α} {q : Reader β}
    (h : ∀ limit, Even limit R p q) :
    Even limit (List.Forall₂ R) (Reader.separated separator p) (Reader.separated separator q) :=
  (h limit).bind fun _ _ hab =>
    (even_furtherItems (Reader.furtherItems.eq_def separator p)
      (Reader.furtherItems.eq_def separator q) fun less _ => h less).bind fun _ _ habs =>
        even_pure (.cons hab habs)

/-- A list of items that are the same is the same list. -/
theorem even_separated_same (separator : TokenKind) {p q : Reader α}
    (h : ∀ limit, Even limit Eq p q) :
    Even limit Eq (Reader.separated separator p) (Reader.separated separator q) := by
  have hlist : Even limit _ _ _ := even_separated separator h
  rwa [List.forall₂_eq_eq_eq] at hlist

theorem even_optionalClause (word : Keyword) {p q : Reader α} (h : Even limit Eq p q) :
    Even limit Eq (optionalClause word p) (optionalClause word q) :=
  (even_optional _).same fun _ => .ite (h.same fun _ => even_pure rfl) (even_pure rfl)

end Sequence

/-- Expressions are read as the same ones wherever at most `limit` tokens are left. -/
structure ExprEven (limit : Nat) : Prop where
  expr : ∀ floor, Even limit Eq (readExprFrom floor) (readExprFrom floor)
  operators : ∀ floor left, Even limit Eq (readOperators floor left) (readOperators floor left)
  operand : Even limit Eq readOperand readOperand
  arguments : ∀ f, Even limit Eq (readArgumentList f) (readArgumentList f)
  exprs : Even limit Eq readExprs readExprs

section Expressions

variable {limit : Nat} (ih : ∀ less < limit, ExprEven less)

include ih in
theorem even_operators (floor : Nat) (left : Expr) :
    Even limit Eq (readOperators floor left) (readOperators floor left) := by
  intro ts us hts hlimit
  cases hts with
  | nil =>
    rw [readOperators]
    exact .read rfl .nil
  | @cons t u after after' ht hrest =>
    by_cases hloose : ∀ op, operator? t.kind = some op → op.precedence < floor
    · rw [readOperators_stop (by rintro _ ⟨⟩; exact hloose),
        readOperators_stop (by rintro _ ⟨⟩; rw [ht.kind]; exact hloose)]
      exact .read rfl (.cons ht hrest)
    · obtain ⟨op, hop, hfloor⟩ : ∃ op, operator? t.kind = some op ∧ floor ≤ op.precedence := by
        simpa using hloose
      rw [readOperators_cons left after hop hfloor,
        readOperators_cons left after' (by rw [ht.kind]; exact hop) hfloor]
      have hless := ih after.length hlimit
      refine ((hless.expr _ after after' hrest (Nat.le_refl _)).followedBy ?_).behind
      rintro right _ r s rfl hrs
      exact hless.operators floor (.binary op left right) r.1 s.1 hrs r.length_le

theorem Alike.readDistinct {ts us : List Token} (h : Alike ts us) (f : Function) :
    (readDistinct f us).1 = (readDistinct f ts).1 ∧
      Alike (readDistinct f ts).2.1 (readDistinct f us).2.1 := by
  cases h with
  | nil => exact ⟨rfl, .nil⟩
  | cons ht hrest =>
    rw [Grammar.readDistinct, Grammar.readDistinct, ht.kind]
    split
    · exact ⟨rfl, hrest⟩
    · exact ⟨rfl, .cons ht hrest⟩

include ih in
theorem even_arguments (f : Function) {ts us : List Token} (h : Alike ts us)
    (hlimit : ts.length < limit) : Agree Eq (readArguments f ts) (readArguments f us) := by
  rw [readArguments_eq, readArguments_eq]
  obtain ⟨hdistinct, hrest⟩ := h.readDistinct f
  rw [hdistinct]
  have hless := ih ts.length hlimit
  refine ((hless.arguments f _ _ hrest (readDistinct f ts).2.length_le).followedBy ?_).under
  rintro es _ r s rfl hrs
  refine (even_mark .rightParen _ _ hrs (Nat.le_refl _)).followedBy ?_
  rintro _ _ r' s' - hrs'
  cases callOf f (readDistinct f ts).1 es with
  | error e => exact .refused e e
  | ok call => exact .read rfl hrs'

include ih in
theorem even_operand : Even limit Eq readOperand readOperand := by
  intro ts us hts hlimit
  cases hts with
  | nil =>
    rw [readOperand]
    exact .refused _ _
  | @cons t u after after' ht hrest =>
    have hless := ih after.length hlimit
    rw [readOperand, readOperand, ht.kind, ht.name?]
    split
    · obtain ⟨e, e', he, he'⟩ | ⟨e, _, r, s, hr, hs, rfl, hrs⟩ :=
        (hless.operand after after' hrest (Nat.le_refl _)).cases
      · rw [he, he']
        exact .refused e e'
      · rw [hr, hs]
        exact .read rfl hrs
    · obtain ⟨e, e', he, he'⟩ | ⟨e, _, r, s, hr, hs, rfl, hrs⟩ :=
        (hless.operand after after' hrest (Nat.le_refl _)).cases
      · rw [he, he']
        exact .refused e e'
      · rw [hr, hs]
        exact .read rfl hrs
    · obtain ⟨e, e', he, he'⟩ | ⟨e, _, r, s, hr, hs, rfl, hrs⟩ :=
        (hless.expr 0 after after' hrest (Nat.le_refl _)).cases
      · rw [he, he']
        exact .refused e e'
      · rw [hr, hs]
        obtain ⟨e', e'', he, he'⟩ | ⟨_, _, r', s', hr', hs', -, hrs'⟩ :=
          (even_mark .rightParen r.1 s.1 hrs (Nat.le_refl _)).cases
        · simp only [he, he']
          exact .refused e' e''
        · simp only [hr', hs']
          exact .read rfl hrs'
    · exact .read rfl hrest
    · exact .read rfl hrest
    · exact .read rfl hrest
    · cases t.name? with
      | none => exact .refused _ _
      | some name =>
        cases hrest with
        | nil => exact .read rfl .nil
        | @cons v w rest rest' hv hrest =>
          dsimp only
          rw [hv.kind]
          split
          · cases Function.ofName? name with
            | none => exact .refused _ _
            | some f =>
              obtain ⟨e, e', he, he'⟩ | ⟨e, _, r, s, hr, hs, rfl, hrs⟩ :=
                (even_arguments ih f hrest (Nat.lt_of_succ_lt hlimit)).cases
              · simp only [he, he']
                exact .refused e e'
              · simp only [hr, hs]
                exact .read rfl hrs
          · split
            · obtain ⟨e, e', he, he'⟩ | ⟨column, _, r, s, hr, hs, rfl, hrs⟩ :=
                (even_identifier rest rest' hrest (Nat.le_refl _)).cases
              · simp only [he, he']
                exact .refused e e'
              · simp only [hr, hs]
                exact .read rfl hrs
            · exact .read rfl (.cons hv hrest)

theorem even_argumentList (f : Function) (hexprs : Even limit Eq readExprs readExprs) :
    Even limit Eq (readArgumentList f) (readArgumentList f) := by
  intro ts us hts hlimit
  cases hts with
  | nil =>
    rw [readArgumentList]
    exact hexprs [] [] .nil hlimit
  | cons ht hrest =>
    rw [readArgumentList, readArgumentList, ht.kind]
    split
    · split
      · exact .read rfl hrest
      · exact .refused _ _
    · split
      · exact .read rfl (.cons ht hrest)
      · exact hexprs _ _ (.cons ht hrest) hlimit

include ih in
theorem even_exprs (hexpr : Even limit Eq (readExprFrom 0) (readExprFrom 0)) :
    Even limit Eq readExprs readExprs := by
  intro ts us hts hlimit
  rw [readExprs, readExprs]
  obtain ⟨e, e', he, he'⟩ | ⟨e, _, ⟨rest, hr⟩, ⟨rest', hs⟩, hread, hread', rfl, hrest⟩ :=
    (hexpr ts us hts hlimit).cases
  · rw [he, he']
    exact .refused e e'
  · rw [hread, hread']
    cases hrest with
    | nil => exact .read rfl .nil
    | @cons t u after after' ht hafter =>
      dsimp only
      rw [ht.kind]
      split
      · have hless : after.length < limit := Nat.lt_of_lt_of_le hr.length_le hlimit
        obtain ⟨e', e'', he, he'⟩ | ⟨es, _, r, s, hr, hs, rfl, hrs⟩ :=
          ((ih after.length hless).exprs after after' hafter (Nat.le_refl _)).cases
        · rw [he, he']
          exact .refused e' e''
        · rw [hr, hs]
          exact .read rfl hrs
      · exact .read rfl (.cons ht hafter)

end Expressions

/-- Expressions are read as the same ones. -/
theorem exprEven (limit : Nat) : ExprEven limit := by
  induction limit using Nat.strongRecOn with
  | ind limit ih =>
    have hoperand := even_operand ih
    have hexpr : ∀ floor, Even limit Eq (readExprFrom floor) (readExprFrom floor) := by
      intro floor ts us hts hlimit
      rw [readExprFrom_eq, readExprFrom_eq]
      refine (hoperand ts us hts hlimit).followedBy ?_
      rintro left _ r s rfl hrs
      exact even_operators ih floor left r.1 s.1 hrs (Nat.le_trans r.length_le hlimit)
    have hexprs := even_exprs ih (hexpr 0)
    exact ⟨hexpr, even_operators ih, hoperand, fun f => even_argumentList f hexprs, hexprs⟩

end Grammar
end SqlEngine
