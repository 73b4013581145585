import SqlEngine.Proofs.Expr.Scope
import SqlEngine.Proofs.Grammar.Forms

/-!
# Expressions that fail

In an expression that is read from tokens a star is the argument of COUNT and an aggregate has one
argument. So its aggregates tell whether it fails: without a group it fails where an aggregate is
called, in a group with rows where one is called in the argument of another, and in a group without
rows never.
-/
namespace SqlEngine
namespace Expr

mutual

/-- An aggregate is called in an argument of an aggregate somewhere in the expression. -/
def nestsAggregate : Expr → Bool
  | column _ | literal _ | star => false
  | negate operand => operand.nestsAggregate
  | binary _ left right => left.nestsAggregate || right.nestsAggregate
  | call f _ arguments =>
    (f.isAggregate && anyContainsAggregate arguments) || anyNestsAggregate arguments

/-- This is so in one of the expressions. -/
def anyNestsAggregate : List Expr → Bool
  | [] => false
  | e :: rest => e.nestsAggregate || anyNestsAggregate rest

end

mutual

theorem containsAggregate_of_nests :
    {e : Expr} → e.nestsAggregate = true → e.containsAggregate = true
  | negate _, h => by
    rw [nestsAggregate] at h
    rw [containsAggregate]
    exact containsAggregate_of_nests h
  | binary _ _ _, h => by
    rw [nestsAggregate, Bool.or_eq_true] at h
    rw [containsAggregate, Bool.or_eq_true]
    exact h.imp containsAggregate_of_nests containsAggregate_of_nests
  | call f _ arguments, h => by
    rw [nestsAggregate, Bool.or_eq_true, Bool.and_eq_true] at h
    rw [containsAggregate, Bool.or_eq_true]
    exact h.imp And.left anyContainsAggregate_of_nests

theorem anyContainsAggregate_of_nests :
    {es : List Expr} → anyNestsAggregate es = true → anyContainsAggregate es = true
  | _ :: _, h => by
    rw [anyNestsAggregate, Bool.or_eq_true] at h
    rw [anyContainsAggregate, Bool.or_eq_true]
    exact h.imp containsAggregate_of_nests anyContainsAggregate_of_nests

end

/-- The aggregates in an expression tell whether it fails: without a group an aggregate does, in a
group with rows one in the argument of another, and nothing in a group without rows. -/
structure ToldByAggregates (e : Expr) : Prop where
  ungrouped : (e.fault? .ungrouped).isSome = e.containsAggregate
  emptyGroup : e.fault? .emptyGroup = none
  group : (e.fault? .group).isSome = e.nestsAggregate

theorem toldByAggregates_all {es : List Expr} (h : ∀ e ∈ es, e.ToldByAggregates) :
    (anyFault? .ungrouped es).isSome = anyContainsAggregate es ∧
      anyFault? .emptyGroup es = none ∧ (anyFault? .group es).isSome = anyNestsAggregate es := by
  induction es with
  | nil => exact ⟨rfl, rfl, rfl⟩
  | cons e rest ih =>
    obtain ⟨he, hrest⟩ := List.forall_mem_cons.1 h
    obtain ⟨hungrouped, hempty, hgroup⟩ := ih hrest
    simp only [anyFault?, anyContainsAggregate, anyNestsAggregate, Option.isSome_or, he.ungrouped,
      he.emptyGroup, he.group, hungrouped, hempty, hgroup, Option.or_none, and_self]

/-- Every aggregate takes one argument. -/
theorem length_of_takes {f : Function} (hf : f.isAggregate = true) {n : Nat}
    (h : f.takes n = true) : n = 1 := by
  have hmost : f.maxArguments? = some 1 := by
    cases f with
    | count | sum | avg | min | max => rfl
    | _ => cases hf
  rw [Function.takes, hmost, Option.all_some, Bool.and_eq_true, decide_eq_true_iff,
    decide_eq_true_iff] at h
  exact Nat.le_antisymm h.2 h.1

theorem toldByAggregates_call {f : Function} {distinct : Bool} {es : List Expr}
    (hes : (f = .count ∧ es = [.star]) ∨ ∀ e ∈ es, e.ToldByAggregates)
    (htakes : f.takes es.length = true) : (call f distinct es).ToldByAggregates := by
  rcases hes with ⟨rfl, rfl⟩ | hes
  · exact ⟨rfl, rfl, rfl⟩
  · by_cases hf : f.isAggregate = true
    · obtain ⟨e, rfl⟩ := List.length_eq_one_iff.1 (length_of_takes hf htakes)
      have he := List.forall_mem_singleton.1 hes
      have hstar : e ≠ .star := by
        rintro rfl
        exact absurd he.ungrouped (by decide)
      -- in a group with rows the argument is evaluated in a row, where any aggregate in it fails
      have hnests : (e.containsAggregate || e.nestsAggregate) = e.containsAggregate := by
        rw [Bool.or_eq_left_iff_imp]
        exact containsAggregate_of_nests
      refine ⟨?_, ?_, ?_⟩
      · simp [fault?, containsAggregate, hf]
      · simp [fault?, hf]
      · simp [fault?, nestsAggregate, anyContainsAggregate, anyNestsAggregate, hf, hnests,
          aggregateFault?_cons hstar, he.ungrouped]
    · obtain ⟨hungrouped, hempty, hgroup⟩ := toldByAggregates_all hes
      refine ⟨?_, ?_, ?_⟩
      · simp [fault?, containsAggregate, hf, hungrouped]
      · simp [fault?, hf, hempty]
      · simp [fault?, nestsAggregate, hf, hgroup]

open Grammar in
theorem heldByForms_toldByAggregates : HeldByForms (fun _ => True) ToldByAggregates where
  number _ := ⟨rfl, rfl, rfl⟩
  text _ := ⟨rfl, rfl, rfl⟩
  null _ := ⟨rfl, rfl, rfl⟩
  column _ _ := ⟨rfl, rfl, rfl⟩
  qualified _ _ _ _ := ⟨rfl, rfl, rfl⟩
  negated {_ e} _ he := by
    fun_cases negated e with
    | case1 x => exact ⟨rfl, rfl, rfl⟩
    | case2 e _ => exact ⟨he.ungrouped, he.emptyGroup, he.group⟩
  binary _ hleft hright := by
    refine ⟨?_, ?_, ?_⟩
    · rw [fault?, Option.isSome_or, hleft.ungrouped, hright.ungrouped, containsAggregate]
    · rw [fault?, hleft.emptyGroup, hright.emptyGroup, Option.or_none]
    · rw [fault?, Option.isSome_or, hleft.group, hright.group, nestsAggregate]
  call _ _ _ hes htakes := toldByAggregates_call hes htakes

/-- Whether and how an expression fails when it is evaluated does not depend on the values of cells:
without a group it fails where it calls an aggregate, and in a group where this has rows and an
aggregate is called in the argument of another one. In scopes of one setting it has values in both
or fails in both with one error. -/
structure FailsByWording (e : Expr) (evaluate : Scope → Except SqlError Value) : Prop where
  ungrouped : ∀ scope : Scope, scope.setting = .ungrouped →
    ((∃ error, evaluate scope = .error error) ↔ e.containsAggregate = true)
  group : ∀ rows computed,
    (∃ error, evaluate (.group rows computed) = .error error) ↔
      rows ≠ [] ∧ e.nestsAggregate = true
  concur : ∀ scope other : Scope, scope.setting = other.setting →
    Concur (evaluate scope) (evaluate other)

theorem ToldByAggregates.failsByWording {e : Expr} (h : e.ToldByAggregates)
    {evaluate : Scope → Except SqlError Value}
    (hends : ∀ scope : Scope, Ends (e.fault? scope.setting) (evaluate scope)) :
    FailsByWording e evaluate where
  ungrouped scope hscope := by
    rw [(hends scope).fails_iff, hscope, h.ungrouped]
  group rows computed := by
    rw [(hends (.group rows computed)).fails_iff]
    cases rows with
    | nil => simp [Scope.setting, h.emptyGroup]
    | cons first rest => simp [Scope.setting, h.group]
  concur scope other hsame := (hends scope).concur (hsame ▸ hends other)

/-- An expression that was read from tokens fails by its wording, also on the right side of a
condition. -/
theorem failsByWording_of_readExprFrom (floor : Nat) (ts : List Token) {e : Expr}
    {rest : Grammar.Rest ts} (h : Grammar.readExprFrom floor ts = .ok (e, rest)) :
    FailsByWording e (fun scope => e.eval scope) ∧
      FailsByWording e (fun scope => e.evalOperand scope) := by
  have htold : e.ToldByAggregates :=
    heldByForms_toldByAggregates.of_readExprFrom floor ts (fun _ _ _ _ => trivial) h
  exact ⟨htold.failsByWording (ends_eval e), htold.failsByWording (ends_evalOperand e)⟩

/-- An aggregate in the argument of another fails where there are rows, whatever they hold. -/
theorem failsByWording_of_readExprFrom_nested :
    ∃ list e rest, Lexer.tokens "1 + SUM(LENGTH(a) * MAX(b))" = .ok list ∧
      Grammar.readExprFrom 0 list.tokens = .ok (e, rest) ∧
      e.canonical = "(1 + SUM((LENGTH(a) * MAX(b))))" ∧
      (∀ row, ∃ error, e.eval (.row row) = .error error) ∧
      ∀ rows computed, (∃ error, e.eval (.group rows computed) = .error error) ↔ rows ≠ [] := by
  have hread : (Lexer.tokens "1 + SUM(LENGTH(a) * MAX(b))").toOption.map (fun list =>
      (Grammar.readExprFrom 0 list.tokens).toOption.map fun (e, _) =>
        (e.canonical, e.containsAggregate, e.nestsAggregate)) =
          some (some ("(1 + SUM((LENGTH(a) * MAX(b))))", true, true)) := by
    decide +kernel
  obtain ⟨list, hlist, hexpr⟩ := exists_ok_of_map hread
  obtain ⟨⟨e, rest⟩, he, htext⟩ := exists_ok_of_map hexpr
  simp only [Prod.mk.injEq] at htext
  obtain ⟨hcanonical, hcontains, hnests⟩ := htext
  obtain ⟨hfails, -⟩ := failsByWording_of_readExprFrom 0 list.tokens he
  refine ⟨list, e, rest, hlist, he, hcanonical, fun row => ?_, fun rows computed => ?_⟩
  · exact (hfails.ungrouped (.row row) rfl).2 hcontains
  · rw [hfails.group rows computed, hnests]
    exact and_iff_left rfl

end Expr
end SqlEngine
