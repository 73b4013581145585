import SqlEngine.Expr.Eval
import SqlEngine.Proofs.Computation

/-!
# What an expression sees of its scope

Whether the evaluation of an expression fails, and how, is decided by its wording, by whether it is
evaluated in a group, and by whether that group has rows. The failure is told here from these alone,
so the values of cells have no part in it. An expression without aggregates sees nothing of a scope
but the values of its columns, and it fails in every scope, and with one error, or in none.
-/
namespace SqlEngine

/-- What of a scope has a part in whether an expression fails. -/
inductive Setting where
  | ungrouped
  | emptyGroup
  | group

/-- A row, two rows laid over each other, and no row at all are no group. -/
def Scope.setting : Scope → Setting
  | .empty | .row _ | .layered _ _ => .ungrouped
  | .group [] _ => .emptyGroup
  | .group (_ :: _) _ => .group

/-- The computation fails in the given way, or, if there is none, it has a result. -/
def Ends {α : Type} (fault? : Option SqlError) (result : Except SqlError α) : Prop :=
  match fault? with
  | some e => result = .error e
  | none => ∃ a, result = .ok a

/-- Both computations have results, or both fail with one error. -/
def Concur {α : Type} (result result' : Except SqlError α) : Prop :=
  (∃ a b, result = .ok a ∧ result' = .ok b) ∨ ∃ e, result = .error e ∧ result' = .error e

namespace Ends

variable {α β γ : Type} {fault? fault'? : Option SqlError} {result result' : Except SqlError α}

theorem ok (a : α) : Ends none (.ok a : Except SqlError α) := ⟨a, rfl⟩

theorem map (h : Ends fault? result) (g : α → β) : Ends fault? (do return g (← result)) := by
  cases fault? with
  | some e =>
    obtain rfl : result = .error e := h
    exact rfl
  | none =>
    obtain ⟨a, rfl⟩ := h
    exact .ok (g a)

/-- Of two computations one after the other, the first one that fails decides. -/
theorem map₂ {other : Except SqlError β} (h : Ends fault? result) (h' : Ends fault'? other)
    (g : α → β → γ) : Ends (fault?.or fault'?) (do return g (← result) (← other)) := by
  cases fault? with
  | some e =>
    obtain rfl : result = .error e := h
    exact rfl
  | none =>
    obtain ⟨a, rfl⟩ := h
    exact h'.map (g a)

/-- A computation for each row fails as it does for one row, if there are rows. -/
theorem mapM {rows : List β} {f : β → Except SqlError α} (h : ∀ row ∈ rows, Ends fault? (f row)) :
    Ends (if rows = [] then none else fault?) (rows.mapM f) := by
  cases rows with
  | nil => exact .ok []
  | cons row rest =>
    rw [if_neg (List.cons_ne_nil row rest)]
    cases fault? with
    | some e =>
      have hfirst : f row = .error e := h row List.mem_cons_self
      rw [List.mapM_cons, hfirst]
      exact rfl
    | none => exact exists_mapM_eq_ok.2 h

theorem fails_iff (h : Ends fault? result) : (∃ e, result = .error e) ↔ fault?.isSome = true := by
  cases fault? with
  | some e => exact iff_of_true ⟨e, h⟩ rfl
  | none =>
    obtain ⟨a, rfl⟩ := h
    exact iff_of_false (fun ⟨e, he⟩ => nomatch he) Bool.false_ne_true

theorem concur (h : Ends fault? result) (h' : Ends fault? result') : Concur result result' := by
  cases fault? with
  | some e => exact .inr ⟨e, h, h'⟩
  | none =>
    obtain ⟨a, ha⟩ := h
    obtain ⟨b, hb⟩ := h'
    exact .inl ⟨a, b, ha, hb⟩

end Ends

namespace Expr

mutual

/-- The way in which an expression fails in a setting, if it does. -/
def fault? (setting : Setting) : Expr → Option SqlError
  | column _ | literal _ => none
  | star => some (.wording .starOutsideCount)
  | negate operand => operand.fault? setting
  | binary _ left right => (left.fault? setting).or (right.fault? setting)
  | call f _ arguments =>
    if f.isAggregate then
      match setting with
      | .ungrouped => some (.wording (.aggregateNotAllowed f))
      | .emptyGroup => none
      | .group => aggregateFault? arguments
    else anyFault? setting arguments

/-- The way in which the first of some expressions fails that does. -/
def anyFault? (setting : Setting) : List Expr → Option SqlError
  | [] => none
  | e :: rest => (e.fault? setting).or (anyFault? setting rest)

/-- The way in which an aggregate fails in a group with rows, by its arguments: the first one is
evaluated in each row, unless it is a star. -/
def aggregateFault? : List Expr → Option SqlError
  | [] | .star :: _ => none
  | e :: _ => e.fault? .ungrouped

end

theorem aggregateFault?_cons {e : Expr} (h : e ≠ .star) (rest : List Expr) :
    aggregateFault? (e :: rest) = e.fault? .ungrouped := by
  rw [aggregateFault?]
  exact h

mutual

/-- The evaluation of an expression fails as its wording says, whatever the values in the scope. -/
theorem ends_eval : (e : Expr) → (scope : Scope) → Ends (e.fault? scope.setting) (e.eval scope)
  | column _, _ => .ok _
  | literal _, _ => .ok _
  | star, _ => rfl
  | negate operand, scope => by
    rw [fault?, eval]
    exact (ends_eval operand scope).map _
  | binary op left right, scope => by
    rw [fault?, eval]
    exact (ends_eval left scope).map₂ (ends_eval right scope) _
  | call f distinct arguments, scope => by
    by_cases hf : f.isAggregate = true
    · have hgroup := ends_evalAggregate f distinct arguments
      match scope with
      | .empty | .row _ | .layered _ _ =>
        simp only [Scope.setting, fault?, eval, hf, if_true]
        exact rfl
      | .group [] _ =>
        simp only [Scope.setting, fault?, eval, hf, if_true]
        exact hgroup []
      | .group (first :: rest) _ =>
        simp only [Scope.setting, fault?, eval, hf, if_true]
        exact hgroup (first :: rest)
    · simp only [fault?, eval, hf, Bool.false_eq_true, if_false]
      exact (ends_evalAll arguments scope).map _

theorem ends_evalAll : (es : List Expr) → (scope : Scope) →
    Ends (anyFault? scope.setting es) (evalAll scope es)
  | [], _ => .ok _
  | e :: rest, scope => by
    rw [anyFault?, evalAll]
    exact (ends_eval e scope).map₂ (ends_evalAll rest scope) _

theorem ends_evalAggregate (f : Function) (distinct : Bool) : (es : List Expr) →
    (rows : List Row) → Ends (if rows = [] then none else aggregateFault? es)
      (evalAggregate f distinct rows es)
  | [], rows => by
    rw [aggregateFault?, ite_self, evalAggregate]
    exact .ok _
  | e :: _, rows => by
    by_cases hstar : e = .star
    · subst hstar
      rw [aggregateFault?, ite_self, evalAggregate]
      exact .ok _
    · rw [aggregateFault?_cons hstar, evalAggregate]
      · exact (Ends.mapM fun row _ => ends_eval e (.row row)).map _
      · exact hstar

end

/-- On the right side of a condition an expression fails as anywhere else. -/
theorem ends_evalOperand (e : Expr) (scope : Scope) :
    Ends (e.fault? scope.setting) (e.evalOperand scope) := by
  fun_cases evalOperand scope e with
  | case1 name => exact .ok _
  | case2 e _ => exact ends_eval e scope

mutual

/-- Without aggregates it makes no difference where an expression is evaluated. -/
theorem fault?_of_plain (setting : Setting) :
    {e : Expr} → e.containsAggregate = false → e.fault? setting = e.fault? .ungrouped
  | column _, _ | literal _, _ | star, _ => rfl
  | negate operand, h => by
    rw [containsAggregate] at h
    rw [fault?, fault?, fault?_of_plain setting h]
  | binary op left right, h => by
    rw [containsAggregate, Bool.or_eq_false_iff] at h
    rw [fault?, fault?, fault?_of_plain setting h.1, fault?_of_plain setting h.2]
  | call f distinct arguments, h => by
    rw [containsAggregate, Bool.or_eq_false_iff] at h
    simp only [fault?, h.1, Bool.false_eq_true, if_false]
    exact anyFault?_of_plain setting h.2

theorem anyFault?_of_plain (setting : Setting) :
    {es : List Expr} → anyContainsAggregate es = false →
      anyFault? setting es = anyFault? .ungrouped es
  | [], _ => rfl
  | e :: rest, h => by
    rw [anyContainsAggregate, Bool.or_eq_false_iff] at h
    rw [anyFault?, anyFault?, fault?_of_plain setting h.1, anyFault?_of_plain setting h.2]

end

variable {scope other : Scope}

mutual

/-- An expression without aggregates is evaluated alike where all columns have the same values. -/
theorem eval_congr (hcolumns : ∀ name, scope.column? name = other.column? name) :
    {e : Expr} → e.containsAggregate = false → e.eval scope = e.eval other
  | column ref, _ => by rw [eval, eval, hcolumns]
  | literal _, _ => rfl
  | star, _ => rfl
  | negate operand, h => by
    rw [containsAggregate] at h
    rw [eval, eval, eval_congr hcolumns h]
  | binary op left right, h => by
    rw [containsAggregate, Bool.or_eq_false_iff] at h
    rw [eval, eval, eval_congr hcolumns h.1, eval_congr hcolumns h.2]
  | call f distinct arguments, h => by
    rw [containsAggregate, Bool.or_eq_false_iff] at h
    simp only [eval, h.1, Bool.false_eq_true, if_false]
    rw [evalAll_congr hcolumns h.2]

theorem evalAll_congr (hcolumns : ∀ name, scope.column? name = other.column? name) :
    {es : List Expr} → anyContainsAggregate es = false → evalAll scope es = evalAll other es
  | [], _ => rfl
  | e :: rest, h => by
    rw [anyContainsAggregate, Bool.or_eq_false_iff] at h
    rw [evalAll, evalAll, eval_congr hcolumns h.1, evalAll_congr hcolumns h.2]

end

end Expr
end SqlEngine
