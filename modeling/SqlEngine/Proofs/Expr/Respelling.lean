import SqlEngine.Condition.Eval
import SqlEngine.Proofs.Row.Names
import SqlEngine.Proofs.Text.SmallForm

/-!
# Expressions and conditions in another spelling

Columns are looked for without regard to the case of ASCII letters, so an expression has the same
value, and a condition holds alike, when names are spelled anew in this way. A name that stands
alone on the right side of a condition keeps its spelling: where there is no such column it stands
for its own text.
-/
namespace SqlEngine

/-- A way of spelling names that leaves each of them the same name. -/
structure Respelling where
  spell : String → String
  same : ∀ name, Text.sameName name (spell name) = true

/-- One name in the spelling of another one that is the same. -/
def Respelling.between {name other : String} (h : Text.sameName name other = true) :
    Respelling where
  spell := fun own => if own = name then other else own
  same := by
    intro own
    split
    · next heq => rwa [heq]
    · exact Text.sameName_refl own

/-- A column under its name in the other spelling. -/
def ColumnRef.respelled (r : Respelling) (ref : ColumnRef) : ColumnRef :=
  { ref with name := r.spell ref.name }

mutual

/-- An expression with the names of its columns in the other spelling. -/
def Expr.respelled (r : Respelling) : Expr → Expr
  | .column ref => .column (ref.respelled r)
  | .literal value => .literal value
  | .star => .star
  | .negate operand => .negate (operand.respelled r)
  | .binary op left right => .binary op (left.respelled r) (right.respelled r)
  | .call f distinct arguments => .call f distinct (Expr.respelledAll r arguments)

def Expr.respelledAll (r : Respelling) : List Expr → List Expr
  | [] => []
  | e :: rest => e.respelled r :: Expr.respelledAll r rest

end

/-- The right side of a condition, where a bare name may stand for its own text. -/
def Expr.respelledOperand (r : Respelling) : Expr → Expr
  | .column ⟨none, name⟩ => .column ⟨none, name⟩
  | e => e.respelled r

mutual

/-- A condition with the names of its columns in the other spelling. -/
def Condition.respelled (r : Respelling) : Condition → Condition
  | .disjunction branches => .disjunction (Condition.respelledAll r branches)
  | .conjunction parts => .conjunction (Condition.respelledAll r parts)
  | .negation inner => .negation (inner.respelled r)
  | .isNull subject negated => .isNull (subject.respelled r) negated
  | .between subject low high negated =>
    .between (subject.respelled r) (low.respelledOperand r) (high.respelledOperand r) negated
  | .oneOf subject items negated =>
    .oneOf (subject.respelled r) (items.map (Expr.respelledOperand r)) negated
  | .like subject pattern negated =>
    .like (subject.respelled r) (pattern.respelledOperand r) negated
  | .compare op left right => .compare op (left.respelled r) (right.respelledOperand r)
  | .unrecognized text => .unrecognized text

def Condition.respelledAll (r : Respelling) : List Condition → List Condition
  | [] => []
  | c :: rest => c.respelled r :: Condition.respelledAll r rest

end

variable (r : Respelling)

theorem Respelling.lower_spell (name : String) : Text.lower (r.spell name) = Text.lower name :=
  (Text.lower_congr (r.same name)).symm

theorem Respelling.get?_spell (row : Row) (name : String) :
    row.get? (r.spell name) = row.get? name :=
  (row.get?_congr (r.same name)).symm

theorem Respelling.column?_spell (scope : Scope) (name : String) :
    scope.column? (r.spell name) = scope.column? name := by
  cases scope <;> simp only [Scope.column?, r.get?_spell]

namespace Expr

mutual

theorem containsAggregate_respelled :
    (e : Expr) → (e.respelled r).containsAggregate = e.containsAggregate
  | column _ | literal _ | star => rfl
  | negate operand => by
    rw [respelled, containsAggregate, containsAggregate, containsAggregate_respelled operand]
  | binary op left right => by
    rw [respelled, containsAggregate, containsAggregate, containsAggregate_respelled left,
      containsAggregate_respelled right]
  | call f distinct arguments => by
    rw [respelled, containsAggregate, containsAggregate, anyContainsAggregate_respelled arguments]

theorem anyContainsAggregate_respelled :
    (es : List Expr) → anyContainsAggregate (respelledAll r es) = anyContainsAggregate es
  | [] => rfl
  | e :: rest => by
    rw [respelledAll, anyContainsAggregate, anyContainsAggregate, containsAggregate_respelled e,
      anyContainsAggregate_respelled rest]

end

mutual

theorem columnRefs_respelled :
    (e : Expr) → (e.respelled r).columnRefs = e.columnRefs.map (·.respelled r)
  | column _ | literal _ | star => rfl
  | negate operand => by
    rw [respelled, columnRefs, columnRefs, columnRefs_respelled operand]
  | binary op left right => by
    rw [respelled, columnRefs, columnRefs, columnRefs_respelled left, columnRefs_respelled right,
      List.map_append]
  | call f distinct arguments => by
    rw [respelled, columnRefs, columnRefs, allColumnRefs_respelled arguments]

theorem allColumnRefs_respelled :
    (es : List Expr) → allColumnRefs (respelledAll r es) = (allColumnRefs es).map (·.respelled r)
  | [] => rfl
  | e :: rest => by
    rw [respelledAll, allColumnRefs, allColumnRefs, columnRefs_respelled e,
      allColumnRefs_respelled rest, List.map_append]

end

mutual

/-- An expression is evaluated alike in both spellings, in every scope. -/
theorem eval_respelled (scope : Scope) : (e : Expr) → (e.respelled r).eval scope = e.eval scope
  | column ref => by
    rw [respelled, eval, eval, ColumnRef.respelled, r.column?_spell]
  | literal _ | star => rfl
  | negate operand => by
    rw [respelled, eval, eval, eval_respelled scope operand]
  | binary op left right => by
    rw [respelled, eval, eval, eval_respelled scope left, eval_respelled scope right]
  | call f distinct arguments => by
    have haggregate := fun rows => evalAggregate_respelled f distinct rows arguments
    have hall := evalAll_respelled scope arguments
    simp only [respelled, eval, haggregate, hall]

theorem evalAll_respelled (scope : Scope) :
    (es : List Expr) → evalAll scope (respelledAll r es) = evalAll scope es
  | [] => rfl
  | e :: rest => by
    rw [respelledAll, evalAll, evalAll, eval_respelled scope e, evalAll_respelled scope rest]

theorem evalAggregate_respelled (f : Function) (distinct : Bool) (rows : List Row) :
    (es : List Expr) →
      evalAggregate f distinct rows (respelledAll r es) = evalAggregate f distinct rows es
  | [] => rfl
  | e :: _ => by
    have hrows := fun row : Row => eval_respelled (.row row) e
    cases e with
    | star => rfl
    | column | literal | negate | binary | call =>
      simp only [respelled] at hrows
      simp only [respelledAll, respelled, evalAggregate, hrows]

end

/-- A right side is evaluated alike in both spellings, also where it stands for its own text. -/
theorem evalOperand_respelled (scope : Scope) (e : Expr) :
    (e.respelledOperand r).evalOperand scope = e.evalOperand scope := by
  cases e with
  | column ref =>
    obtain ⟨qualifier?, name⟩ := ref
    cases qualifier? with
    | none => rfl
    | some qualifier => exact eval_respelled r scope (.column ⟨some qualifier, name⟩)
  | star | literal => rfl
  | negate operand => exact eval_respelled r scope (.negate operand)
  | binary op left right => exact eval_respelled r scope (.binary op left right)
  | call f distinct arguments => exact eval_respelled r scope (.call f distinct arguments)

end Expr

namespace Condition

theorem findItem_respelled (scope : Scope) (value : Value) (items : List Expr) :
    findItem scope value (items.map (Expr.respelledOperand r)) = findItem scope value items := by
  induction items with
  | nil => rfl
  | cons item rest ih =>
    rw [List.map_cons, findItem, findItem, Expr.evalOperand_respelled, ih]

mutual

/-- A condition holds alike in both spellings, in every scope. -/
theorem holds_respelled (scope : Scope) :
    (c : Condition) → (c.respelled r).holds scope = c.holds scope
  | disjunction branches => by
    rw [respelled, holds, holds, anyHolds_respelled scope branches]
  | conjunction parts => by
    rw [respelled, holds, holds, allHold_respelled scope parts]
  | negation inner => by
    rw [respelled, holds, holds, holds_respelled scope inner]
  | isNull subject negated => by
    rw [respelled, holds, holds, Expr.eval_respelled]
  | between subject low high negated => by
    rw [respelled, holds, holds, Expr.eval_respelled, Expr.evalOperand_respelled,
      Expr.evalOperand_respelled]
  | oneOf subject items negated => by
    simp only [respelled, holds, Expr.eval_respelled, findItem_respelled]
  | like subject pattern negated => by
    rw [respelled, holds, holds, Expr.eval_respelled, Expr.evalOperand_respelled]
  | compare op left right => by
    rw [respelled, holds, holds, Expr.eval_respelled, Expr.evalOperand_respelled]
  | unrecognized _ => rfl

theorem anyHolds_respelled (scope : Scope) :
    (cs : List Condition) → anyHolds scope (respelledAll r cs) = anyHolds scope cs
  | [] => rfl
  | c :: rest => by
    rw [respelledAll, anyHolds, anyHolds, holds_respelled scope c, anyHolds_respelled scope rest]

theorem allHold_respelled (scope : Scope) :
    (cs : List Condition) → allHold scope (respelledAll r cs) = allHold scope cs
  | [] => rfl
  | c :: rest => by
    rw [respelledAll, allHold, allHold, holds_respelled scope c, allHold_respelled scope rest]

end

theorem clauseHolds_respelled (clause : Option Condition) (scope : Scope) :
    clauseHolds (clause.map (·.respelled r)) scope = clauseHolds clause scope := by
  cases clause with
  | none => rfl
  | some c => exact holds_respelled r scope c

end Condition

end SqlEngine
