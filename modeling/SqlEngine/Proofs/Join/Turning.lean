import Mathlib.Data.List.Forall2
import SqlEngine.Join
import SqlEngine.Proofs.Row.Names

/-!
# Join conditions written the other way round

The joined table alone decides which column of a pair is looked up on the left: a pair is turned
round when its first column names that table and its second one does not, and every other pair is
taken as written. So the two ways of writing a pair come to the same exactly when one of its columns
names the joined table and the other one does not, or when both columns have the same name. A column
that names a table on the left does not decide anything.
-/
namespace SqlEngine

/-- The qualifier of the column is a name of the table. -/
def TableRef.isNamedBy (table : TableRef) (ref : ColumnRef) : Bool :=
  ref.qualifier.any table.answersTo

/-- The qualifier of the column is a name of exactly one of the tables. -/
def ColumnRef.namesOneOf (tables : List TableRef) (ref : ColumnRef) : Bool :=
  (tables.filter (·.isNamedBy ref)).length = 1

namespace Join

/-- The names of a pair of columns, the one for the rows on the left first. -/
def oriented (table : TableRef) (pair : ColumnRef × ColumnRef) : String × String :=
  if table.isNamedBy pair.1 && !table.isNamedBy pair.2 then (pair.2.name, pair.1.name)
  else (pair.1.name, pair.2.name)

theorem orientedPairs_eq_map (clause : JoinClause) :
    orientedPairs clause = clause.pairs.map (oriented clause.table) := rfl

/-- Two pairs of names that stand for the same columns, each on its side. -/
def SamePair (p q : String × String) : Prop :=
  Text.sameName p.1 q.1 = true ∧ Text.sameName p.2 q.2 = true

theorem SamePair.refl (p : String × String) : SamePair p p :=
  ⟨Text.sameName_refl p.1, Text.sameName_refl p.2⟩

/-- It makes no difference which column of the pair is written first: exactly one of them names the
joined table, or both have the same name. -/
def Turnable (table : TableRef) (pair : ColumnRef × ColumnRef) : Prop :=
  table.isNamedBy pair.1 ≠ table.isNamedBy pair.2 ∨
    Text.sameName pair.1.name pair.2.name = true

instance (table : TableRef) (pair : ColumnRef × ColumnRef) : Decidable (Turnable table pair) :=
  inferInstanceAs (Decidable (_ ∨ _))

/-- The turned pair stands for the same columns on the same sides exactly if it is turnable. -/
theorem samePair_oriented_swap_iff {table : TableRef} {pair : ColumnRef × ColumnRef} :
    SamePair (oriented table pair.swap) (oriented table pair) ↔ Turnable table pair := by
  obtain ⟨a, b⟩ := pair
  have hwritten : ∀ x y : String,
      SamePair (y, x) (x, y) ↔ Text.sameName x y = true := by
    intro x y
    constructor
    · intro h
      exact h.2
    · intro h
      exact ⟨Text.sameName_comm x y ▸ h, h⟩
  simp only [Turnable, oriented, Prod.fst_swap, Prod.snd_swap]
  -- the four ways in which the two columns may name the joined table
  cases ha : table.isNamedBy a <;> cases hb : table.isNamedBy b
  · simpa using hwritten a.name b.name
  · simpa using SamePair.refl (a.name, b.name)
  · simpa using SamePair.refl (b.name, a.name)
  · simpa using hwritten a.name b.name

/-- A pair of a join condition that is written as before or the other way round. -/
def Rewritten (table : TableRef) (pair other : ColumnRef × ColumnRef) : Prop :=
  other = pair ∨ other = pair.swap ∧ Turnable table pair

theorem Rewritten.samePair {table : TableRef} {pair other : ColumnRef × ColumnRef}
    (h : Rewritten table pair other) : SamePair (oriented table other) (oriented table pair) := by
  rcases h with rfl | ⟨rfl, hturnable⟩
  · exact SamePair.refl _
  · exact samePair_oriented_swap_iff.2 hturnable

/-- Rows match on pairs that stand for the same columns alike. -/
theorem rowsMatch_congr {pairs others : List (String × String)}
    (h : List.Forall₂ SamePair others pairs) : rowsMatch others = rowsMatch pairs := by
  funext left right
  induction h with
  | nil => rfl
  | @cons other pair others pairs hsame hrest ih =>
    have hleft : left.get? other.1 = left.get? pair.1 := left.get?_congr hsame.1
    have hright : right.get? other.2 = right.get? pair.2 := right.get?_congr hsame.2
    simp only [rowsMatch, List.all_cons, hleft, hright] at ih ⊢
    rw [ih]

/-- A join looks at its pairs only to see which rows match. -/
theorem joinRows_congr (clause other : JoinClause) (hkind : other.kind = clause.kind)
    (hmatch : rowsMatch (orientedPairs other) = rowsMatch (orientedPairs clause))
    (semantics : JoinSemantics) (left : List Row) (leftColumns : List String) (table : Table) :
    joinRows semantics left leftColumns table other =
      joinRows semantics left leftColumns table clause := by
  have hnested : ∀ keepUnmatched, nestedLoop (orientedPairs other) keepUnmatched left table =
      nestedLoop (orientedPairs clause) keepUnmatched left table := by
    intro keepUnmatched
    have hstep : nestedStep (orientedPairs other) = nestedStep (orientedPairs clause) := by
      unfold nestedStep
      rw [hmatch]
    simp only [nestedLoop, hstep]
  have hright : rightJoin (orientedPairs other) leftColumns left table =
      rightJoin (orientedPairs clause) leftColumns left table := by
    have hstep : rightStep (orientedPairs other) = rightStep (orientedPairs clause) := by
      unfold rightStep
      rw [hmatch]
    simp only [rightJoin, hstep]
  have hfull : fullJoin (orientedPairs other) leftColumns left table =
      fullJoin (orientedPairs clause) leftColumns left table := by
    have hmeet : fullMeet (orientedPairs other) = fullMeet (orientedPairs clause) := by
      unfold fullMeet
      rw [hmatch]
    have hstep : fullStep (orientedPairs other) = fullStep (orientedPairs clause) := by
      unfold fullStep
      rw [hmeet]
    simp only [fullJoin, hstep]
  simp only [joinRows, hkind, hnested, hright, hfull]

/-- Writing pairs of a join condition the other way round does not change the rows of the join or
their order, whatever the rows, the kind of the join and the other pairs are, as long as exactly one
column of each pair that is turned names the joined table, or both have the same name. -/
theorem joinRows_turned (semantics : JoinSemantics) (left : List Row) (leftColumns : List String)
    (table : Table) (clause : JoinClause) (pairs : List (ColumnRef × ColumnRef))
    (hpairs : List.Forall₂ (Rewritten clause.table) clause.pairs pairs) :
    joinRows semantics left leftColumns table { clause with pairs } =
      joinRows semantics left leftColumns table clause := by
  have hsame : List.Forall₂ SamePair (orientedPairs { clause with pairs })
      (orientedPairs clause) := by
    rw [orientedPairs_eq_map, orientedPairs_eq_map, List.forall₂_map_left_iff,
      List.forall₂_map_right_iff]
    exact hpairs.flip.imp fun _ _ => Rewritten.samePair
  exact joinRows_congr clause { clause with pairs } rfl (rowsMatch_congr hsame) semantics left
    leftColumns table

/-- Of two pairs the second one is turned round; its first column then names the joined table by its
other name. Ann is found in her department, and Bob, whose department is elsewhere, is not. -/
theorem joinRows_turned_department :
    let clause : JoinClause := ⟨.left, ⟨"dept", some "d"⟩,
      [(⟨some "dept", "town"⟩, ⟨none, "home"⟩), (⟨some "e", "dept_id"⟩, ⟨some "D", "id"⟩)]⟩
    let pairs : List (ColumnRef × ColumnRef) :=
      [(⟨some "dept", "town"⟩, ⟨none, "home"⟩), (⟨some "D", "id"⟩, ⟨some "e", "dept_id"⟩)]
    let staff : List Row :=
      [⟨[("name", .text "Ann"), ("home", .text "Ulm"), ("dept_id", .text "x")]⟩,
        ⟨[("name", .text "Bob"), ("home", .text "Bonn"), ("dept_id", .text "x")]⟩]
    let dept : Table := ⟨"dept", [.plain "id" "text", .plain "town" "text"],
      [⟨[("id", .text "x"), ("town", .text "Ulm")]⟩], []⟩
    List.Forall₂ (Rewritten clause.table) clause.pairs pairs ∧
      joinRows .standard staff ["name", "home", "dept_id"] dept { clause with pairs } =
        joinRows .standard staff ["name", "home", "dept_id"] dept clause ∧
      (joinRows .standard staff ["name", "home", "dept_id"] dept clause).map (·.getD "id") =
        [.text "x", .null] := by
  intro clause pairs staff dept
  have hpairs : List.Forall₂ (Rewritten clause.table) clause.pairs pairs := by
    refine .cons (.inl rfl) (.cons (.inr ⟨rfl, ?_⟩) .nil)
    decide +kernel
  refine ⟨hpairs, joinRows_turned .standard staff _ dept clause pairs hpairs, ?_⟩
  decide +kernel

/-- The pair is not turned when its only qualifier names a table on the left: Ann is found in her
department, and she is not when the same pair is written with the other column first. -/
theorem joinRows_bare_column_first :
    let emp : TableRef := ⟨"emp", some "e"⟩
    let dept : TableRef := ⟨"dept", some "d"⟩
    let qualified : ColumnRef := ⟨some "e", "dept_id"⟩
    let bare : ColumnRef := ⟨none, "id"⟩
    let ann : Row := ⟨[("name", .text "Ann"), ("dept_id", .text "x")]⟩
    let sales : Row := ⟨[("id", .text "x"), ("title", .text "Sales")]⟩
    let depts : Table := ⟨"dept", [.plain "id" "text", .plain "title" "text"], [sales], []⟩
    qualified.namesOneOf [emp, dept] = true ∧
      joinRows .standard [ann] ["name", "dept_id"] depts ⟨.inner, dept, [(qualified, bare)]⟩ =
        [combine ann sales] ∧
      joinRows .standard [ann] ["name", "dept_id"] depts ⟨.inner, dept, [(bare, qualified)]⟩ =
        [] := by
  decide +kernel

end Join
end SqlEngine
