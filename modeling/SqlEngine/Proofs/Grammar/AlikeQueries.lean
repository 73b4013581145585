import SqlEngine.Condition.Eval
import SqlEngine.Proofs.Cursor.Condition
import SqlEngine.Proofs.Grammar.Alike

/-!
# Conditions and queries of tokens that are alike

A condition in no known form keeps the text that it is written as, white space included. It counts
as true, whatever its text is, so conditions of tokens that are alike hold in the same scopes. The
parts of a query beside its conditions are read as the same ones, the texts of its items too.
-/
namespace SqlEngine

/-- The conditions hold in the same scopes, and fail in the same ones. -/
def Condition.Same (c d : Condition) : Prop := ∀ scope, c.holds scope = d.holds scope

/-- The clauses hold in the same scopes. -/
def Condition.SameClause (f g : Option Condition) : Prop := clauseHolds f = clauseHolds g

namespace Condition

variable {c d : Condition} {cs ds : List Condition}

theorem anyHolds_same (h : List.Forall₂ Same cs ds) (scope : Scope) :
    anyHolds scope cs = anyHolds scope ds := by
  induction h with
  | nil => rfl
  | cons hcd hrest ih => rw [anyHolds, anyHolds, hcd scope, ih]

theorem allHold_same (h : List.Forall₂ Same cs ds) (scope : Scope) :
    allHold scope cs = allHold scope ds := by
  induction h with
  | nil => rfl
  | cons hcd hrest ih => rw [allHold, allHold, hcd scope, ih]

theorem Same.negation (h : Same c d) : Same c.negation d.negation := by
  intro scope
  rw [holds, holds, h scope]

theorem Same.disjunctionOf (h : Same c d) (hrest : List.Forall₂ Same cs ds) :
    Same (Grammar.disjunctionOf c cs) (Grammar.disjunctionOf d ds) := by
  cases hrest with
  | nil => exact h
  | cons hfirst hmore =>
    intro scope
    change (disjunction (c :: _ :: _)).holds scope = (disjunction (d :: _ :: _)).holds scope
    rw [holds, holds]
    exact anyHolds_same (.cons h (.cons hfirst hmore)) scope

theorem Same.conjunctionOf (h : Same c d) (hrest : List.Forall₂ Same cs ds) :
    Same (Grammar.conjunctionOf c cs) (Grammar.conjunctionOf d ds) := by
  cases hrest with
  | nil => exact h
  | cons hfirst hmore =>
    intro scope
    change (conjunction (c :: _ :: _)).holds scope = (conjunction (d :: _ :: _)).holds scope
    rw [holds, holds]
    exact allHold_same (.cons h (.cons hfirst hmore)) scope

end Condition

namespace Grammar

open Condition (Same SameClause)

variable {ts us : List Token} {limit : Nat}

theorem Alike.take (h : Alike ts us) {n m : Nat} (hn : n = m) : Alike (ts.take n) (us.take m) := by
  subst hn
  exact List.forall₂_take n h

theorem Alike.drop (h : Alike ts us) {n m : Nat} (hn : n = m) : Alike (ts.drop n) (us.drop m) := by
  subst hn
  exact List.forall₂_drop n h

theorem even_expr : Even limit Eq readExpr readExpr := (exprEven limit).expr 0

section Atoms

theorem even_comparison : Even limit Eq readComparison readComparison := by
  intro ts us hts _
  cases hts with
  | nil => exact .refused _ _
  | cons ht hrest =>
    rw [readComparison, readComparison, ht.kind]
    split
    · exact .read rfl hrest
    · exact .refused _ _

theorem even_between (subject : Expr) (negated : Bool) :
    Even limit Eq (readBetween subject negated) (readBetween subject negated) :=
  even_expr.same fun _ => (even_keyword _).same fun _ => even_expr.same fun _ => even_pure rfl

theorem even_oneOf (subject : Expr) (negated : Bool) :
    Even limit Eq (readOneOf subject negated) (readOneOf subject negated) :=
  (even_mark _).same fun _ => (exprEven limit).exprs.same fun _ => (even_mark _).same fun _ =>
    even_pure rfl

theorem even_form (subject : Expr) (negated : Bool) :
    Even limit Eq (readForm subject negated) (readForm subject negated) :=
  (even_optional _).same fun _ => .ite (even_between subject negated) <|
    (even_optional _).same fun _ => .ite (even_oneOf subject negated) <|
    (even_optional _).same fun _ => .ite (even_expr.same fun _ => even_pure rfl) <|
    .ite (even_refuse _ _) <|
    even_comparison.same fun _ => even_expr.same fun _ => even_pure rfl

theorem even_atom : Even limit Eq readAtom readAtom :=
  even_expr.same fun subject => (even_optional _).same fun _ =>
    .ite ((even_optional _).same fun _ => (even_keyword _).same fun _ => even_pure rfl)
      ((even_optional _).same fun negated => even_form subject negated)

theorem Alike.skipUnrecognized (h : Alike ts us) (depth : Nat) (pending : Bool) :
    Alike (Grammar.skipUnrecognized depth pending ts)
      (Grammar.skipUnrecognized depth pending us) := by
  induction h generalizing depth pending with
  | nil => exact .nil
  | cons ht hrest ih =>
    rw [Grammar.skipUnrecognized, Grammar.skipUnrecognized, ht.kind]
    split
    · exact .nil
    · exact .cons ht (ih _ _)
    · split
      · exact .nil
      · exact .cons ht (ih _ _)
    · exact .cons ht (ih _ _)
    · split
      · split
        · exact .cons ht (ih _ _)
        · exact .nil
      · exact .cons ht (ih _ _)
    · split
      · exact .nil
      · exact .cons ht (ih _ _)

theorem even_unrecognized : Even limit Same readUnrecognized readUnrecognized := by
  intro ts us hts _
  have htaken := hts.skipUnrecognized 0 false
  refine .read (fun scope => ?_) ?_
  · rw [Condition.holds, Condition.holds]
  · exact hts.drop htaken.length_eq

theorem Alike.atBoundary (h : Alike ts us) : Grammar.atBoundary us = Grammar.atBoundary ts := by
  cases h with
  | nil => rfl
  | cons ht hrest => rw [Grammar.atBoundary, Grammar.atBoundary, ht.kind]

theorem even_simple : Even limit Same readSimple readSimple := by
  intro ts us hts hlimit
  have hunrecognized := even_unrecognized ts us hts hlimit
  rw [readSimple, readSimple]
  obtain ⟨e, e', he, he'⟩ | ⟨c, _, r, s, hr, hs, rfl, hrs⟩ := (even_atom ts us hts hlimit).cases
  · rw [he, he']
    exact hunrecognized
  · rw [hr, hs]
    dsimp only
    rw [hrs.atBoundary]
    split
    · exact .read (fun _ => rfl) hrs
    · exact hunrecognized

end Atoms

/-- Conditions are read as the same ones wherever at most `limit` tokens are left. -/
structure ConditionEven (limit : Nat) : Prop where
  condition : Even limit Same readCondition readCondition
  conjunction : Even limit Same readConjunction readConjunction
  negation : Even limit Same readNegation readNegation

section Conditions

variable (ih : ∀ less < limit, ConditionEven less)

include ih in
theorem even_primary : Even limit Same readPrimary readPrimary := by
  intro ts us hts hlimit
  have hsimple := even_simple ts us hts hlimit
  cases hts with
  | nil =>
    rw [readPrimary]
    exact .refused _ _
  | @cons t u after after' ht hrest =>
    rw [readPrimary, readPrimary, ht.kind]
    split
    · exact .refused _ _
    · split
      · have hless := (ih after.length hlimit).condition
        obtain ⟨e, e', he, he'⟩ | ⟨c, d, r, s, hr, hs, hcd, hrs⟩ :=
          (hless after after' hrest (Nat.le_refl _)).cases
        · rw [he, he']
          exact hsimple
        · rw [hr, hs]
          obtain ⟨e, e', he, he'⟩ | ⟨_, _, r', s', hr', hs', -, hrs'⟩ :=
            (even_mark .rightParen r.1 s.1 hrs (Nat.le_refl _)).cases
          · simp only [he, he']
            exact hsimple
          · simp only [hr', hs']
            rw [hrs'.atBoundary]
            split
            · exact .read hcd hrs'
            · exact hsimple
      · exact hsimple

include ih in
theorem even_negation : Even limit Same readNegation readNegation := by
  intro ts us hts hlimit
  have hprimary := even_primary ih ts us hts hlimit
  cases hts with
  | nil =>
    rw [readNegation]
    exact hprimary
  | @cons t u after after' ht hrest =>
    rw [readNegation, readNegation, ht.kind]
    split
    · obtain ⟨e, e', he, he'⟩ | ⟨c, d, r, s, hr, hs, hcd, hrs⟩ :=
        ((ih after.length hlimit).negation after after' hrest (Nat.le_refl _)).cases
      · rw [he, he']
        exact .refused e e'
      · rw [hr, hs]
        exact .read hcd.negation hrs
    · exact hprimary

end Conditions

theorem readConjunction_eq_followedBy (ts : List Token) :
    readConjunction ts = (readNegation ts).followedBy fun first us =>
      (readParts us).followedBy fun rest vs => .ok (conjunctionOf first rest, .whole vs) := by
  rw [readConjunction]
  cases readNegation ts with
  | error e => rfl
  | ok read =>
    dsimp only [Reading.followedBy]
    cases readParts read.2.1 <;> rfl

theorem readCondition_eq_followedBy (ts : List Token) :
    readCondition ts = (readConjunction ts).followedBy fun first us =>
      (readBranches us).followedBy fun rest vs => .ok (disjunctionOf first rest, .whole vs) := by
  rw [readCondition]
  cases readConjunction ts with
  | error e => rfl
  | ok read =>
    dsimp only [Reading.followedBy]
    cases readBranches read.2.1 <;> rfl

theorem conditionEven (limit : Nat) : ConditionEven limit := by
  induction limit using Nat.strongRecOn with
  | ind limit ih =>
    have hnegation := even_negation ih
    have hparts : Even limit (List.Forall₂ Same) readParts readParts :=
      even_furtherItems Cursor.readParts_step Cursor.readParts_step fun less hless =>
        (ih less hless).negation
    have hbranches : Even limit (List.Forall₂ Same) readBranches readBranches :=
      even_furtherItems Cursor.readBranches_step Cursor.readBranches_step fun less hless =>
        (ih less hless).conjunction
    have hconjunction : Even limit Same readConjunction readConjunction := by
      intro ts us hts hlimit
      rw [readConjunction_eq_followedBy, readConjunction_eq_followedBy]
      refine (hnegation ts us hts hlimit).followedBy fun c d r s hcd hrs => ?_
      refine (hparts r.1 s.1 hrs (Nat.le_trans r.length_le hlimit)).followedBy ?_
      exact fun cs ds r' s' hrest hrs' => .read (hcd.conjunctionOf hrest) hrs'
    have hcondition : Even limit Same readCondition readCondition := by
      intro ts us hts hlimit
      rw [readCondition_eq_followedBy, readCondition_eq_followedBy]
      refine (hconjunction ts us hts hlimit).followedBy fun c d r s hcd hrs => ?_
      refine (hbranches r.1 s.1 hrs (Nat.le_trans r.length_le hlimit)).followedBy ?_
      exact fun cs ds r' s' hrest hrs' => .read (hcd.disjunctionOf hrest) hrs'
    exact ⟨hcondition, hconjunction, hnegation⟩

theorem even_conditionClause (word : Keyword) :
    Even limit SameClause (optionalClause word readCondition)
      (optionalClause word readCondition) :=
  (even_optional _).same fun _ => .ite
    ((conditionEven limit).condition.bind fun _ _ h => even_pure (funext h)) (even_pure rfl)

section Queries

theorem even_columnRef : Even limit Eq readColumnRef readColumnRef :=
  even_identifier.same fun _ => (even_optional _).same fun _ =>
    .ite (even_identifier.same fun _ => even_pure rfl) (even_pure rfl)

theorem even_alias {p : Reader String} (h : Even limit Eq p p) :
    Even limit Eq (readAlias p) (readAlias p) := by
  refine (even_optional _).same fun _ => .ite (h.same fun _ => even_pure rfl) ?_
  refine even_ahead.bind fun ts us hts => ?_
  rw [hts.startsName]
  exact .ite (h.same fun _ => even_pure rfl) (even_pure rfl)

/-- The words of the tokens are the same, so it is the same text once it is collapsed. -/
theorem Alike.collapse_textOf (h : Alike ts us) :
    Text.collapse (Token.textOf us) = Text.collapse (Token.textOf ts) := by
  cases h with
  | nil => rfl
  | @cons t u after after' ht hrest =>
    have hmore : Script.Thinned (after.flatMap fun token => token.gap ++ token.lexeme)
        (after'.flatMap fun token => token.gap ++ token.lexeme) := by
      induction hrest with
      | nil => exact .nil
      | cons hv hmore ih =>
        rw [List.flatMap_cons, List.flatMap_cons, hv.lexeme]
        exact (hv.gap.append (.refl _)).append ih
    rw [Text.collapse, Text.collapse, Token.textOf, Token.textOf, String.toList_ofList,
      String.toList_ofList, ht.lexeme, (hmore.prepend t.lexeme).wordsFrom_eq]

theorem even_written : Even limit Eq readWritten readWritten := by
  refine even_ahead.bind fun ts us hts => even_expr.same fun e => even_ahead.bind ?_
  intro after after' hafter
  refine even_pure ?_
  have htaken := hts.take (congrArg₂ (· - ·) hts.length_eq hafter.length_eq)
  rw [htaken.collapse_textOf]

theorem Alike.startsStarOf (h : Alike ts us) :
    Grammar.startsStarOf us = Grammar.startsStarOf ts := by
  cases h with
  | nil => rfl
  | cons ht hrest =>
    cases hrest with
    | nil => rfl
    | cons hu hrest =>
      cases hrest with
      | nil => rfl
      | cons hv hrest =>
        rw [Grammar.startsStarOf, Grammar.startsStarOf, ht.name?, hu.kind, hv.kind]

theorem even_item : Even limit Eq readItem readItem := by
  refine (even_optional _).same fun _ => .ite (even_pure rfl) (even_ahead.bind fun ts us hts => ?_)
  rw [hts.startsStarOf]
  refine .ite ?_ ?_
  · exact even_identifier.same fun _ => (even_mark _).same fun _ => (even_mark _).same fun _ =>
      even_pure rfl
  · exact even_written.same fun _ => (even_alias even_identifier).same fun _ => even_pure rfl

theorem even_table : Even limit Eq readTable readTable :=
  even_name.same fun _ => (even_alias even_name).same fun _ => even_pure rfl

theorem even_pair : Even limit Eq readPair readPair :=
  even_columnRef.same fun _ => (even_mark _).same fun _ => even_columnRef.same fun _ =>
    even_pure rfl

theorem even_pairs : Even limit Eq readPairs readPairs :=
  (even_optional _).same fun _ => (even_separated_same _ fun _ => even_pair).same fun _ =>
    .ite ((even_mark _).same fun _ => even_pure rfl) (even_pure rfl)

theorem even_join (kind : JoinKind) (plain : Bool) :
    Even limit Eq (readJoin kind plain) (readJoin kind plain) := by
  have hbehind : Even limit Eq (readJoin kind true) (readJoin kind true) :=
    even_table.same fun _ => (even_optional _).same fun _ =>
      .ite (even_pairs.same fun _ => even_pure rfl) (.ite (even_pure rfl) (even_refuse _ _))
  cases plain with
  | true => exact hbehind
  | false => exact (even_optional _).same fun _ => (even_keyword _).same fun _ => hbehind

theorem even_joins : Even limit Eq readJoins readJoins := by
  induction limit using Nat.strongRecOn with
  | ind limit ih =>
    intro ts us hts hlimit
    cases hts with
    | nil =>
      rw [readJoins]
      exact .read rfl .nil
    | @cons t u after after' ht hrest =>
      rw [readJoins, readJoins, ht.kind]
      split
      · exact .read rfl (.cons ht hrest)
      · next kind _ =>
        obtain ⟨e, e', he, he'⟩ | ⟨clause, _, r, s, hr, hs, rfl, hrs⟩ :=
          (even_join kind _ after after' hrest (Nat.le_refl _)).cases
        · rw [he, he']
          exact .refused e e'
        · rw [hr, hs]
          have hless : after.length < limit := hlimit
          obtain ⟨e, e', he, he'⟩ | ⟨clauses, _, r', s', hr', hs', rfl, hrs'⟩ :=
            (ih after.length hless r.1 s.1 hrs r.length_le).cases
          · simp only [he, he']
            exact .refused e e'
          · simp only [hr', hs']
            exact .read rfl hrs'

theorem even_orderItem : Even limit Eq readOrderItem readOrderItem :=
  even_expr.same fun _ => (even_optional _).same fun _ =>
    .ite (even_pure rfl) ((even_optional _).same fun _ => even_pure rfl)

theorem even_count : Even limit Eq readCount readCount := by
  intro ts us hts _
  cases hts with
  | nil => exact .refused _ _
  | cons ht hrest =>
    rw [readCount, readCount, ht.kind]
    split
    · split
      · exact .refused _ _
      · exact .read rfl hrest
    · exact .refused _ _

end Queries

end Grammar
end SqlEngine
