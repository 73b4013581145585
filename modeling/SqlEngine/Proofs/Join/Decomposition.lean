import Mathlib.Data.List.Perm.Basic
import Mathlib.Data.List.ProdSigma
import SqlEngine.Proofs.Join.Loops
import SqlEngine.Proofs.Row.Last
import SqlEngine.Proofs.Row.Shape

/-!
# The four joins in terms of their matches

The inner join lists the matching pairs. Each outer join lists them too, with one more row for every
row of the kept side that matches nothing. The loops run over the two sides in different orders, so
the statements about the left and the right join are up to the order of the rows. Matching is not
assumed to be an equivalence.
-/
namespace SqlEngine.Join

/-- The left rows that match no right row. -/
def unmatchedLeft (pairs : List (String × String)) (left right : List Row) : List Row :=
  left.filter fun row => !right.any (rowsMatch pairs row)

section Lists

variable {α β γ : Type}

/-- Listing the related pairs by their first or by their second members gives the same pairs. -/
theorem flatMap_filter_map_perm (related : α → β → Bool) (f : α → β → γ) (as : List α)
    (bs : List β) :
    (bs.flatMap fun b => (as.filter (related · b)).map (f · b)).Perm
      (as.flatMap fun a => (bs.filter (related a)).map (f a)) := by
  induction as with
  | nil =>
    have hnone : (bs.flatMap fun b => ([].filter (related · b)).map (f · b)) = [] :=
      List.flatMap_eq_nil_iff.2 fun _ _ => rfl
    rw [hnone]
    exact .nil
  | cons a rest ih =>
    have hcons : ∀ b, ((a :: rest).filter (related · b)).map (f · b) =
        (if related a b then [f a b] else []) ++ (rest.filter (related · b)).map (f · b) := by
      intro b
      by_cases h : related a b <;> simp [h]
    simp only [hcons]
    rw [List.flatMap_cons, ← flatMap_ite_singleton (related a) (f a)]
    exact (List.flatMap_append_perm bs _ _).symm.trans (ih.append_left _)

/-- What stands behind the lists of some members can be moved to the end. -/
theorem flatMap_append_ite_perm (f : α → List β) (p : α → Bool) (g : α → β) (as : List α) :
    (as.flatMap fun a => f a ++ if p a then [g a] else []).Perm
      (as.flatMap f ++ (as.filter p).map g) := by
  rw [← flatMap_ite_singleton p g]
  exact (List.flatMap_append_perm as f _).symm

/-- What stands behind the lists of some members stands there in the order of the members. -/
theorem filter_map_sublist_flatMap (f : α → List β) (p : α → Bool) (g : α → β) (as : List α) :
    ((as.filter p).map g).Sublist (as.flatMap fun a => f a ++ if p a then [g a] else []) := by
  rw [← flatMap_ite_singleton p g]
  induction as with
  | nil => exact .slnil
  | cons a rest ih =>
    rw [List.flatMap_cons, List.flatMap_cons]
    exact (List.sublist_append_right _ _).append ih

end Lists

variable {pairs : List (String × String)}

/-- The inner join lists the matching pairs, left row by left row. -/
theorem innerRows_eq_product (pairs : List (String × String)) (left right : List Row) :
    innerRows pairs left right =
      ((left ×ˢ right).filter fun pair => rowsMatch pairs pair.1 pair.2).map
        fun pair => combine pair.1 pair.2 := by
  have hproduct : left ×ˢ right = left.flatMap fun l => right.map (Prod.mk l) := rfl
  rw [innerRows, hproduct, List.filter_flatMap, List.map_flatMap]
  congr 1
  funext row
  rw [matchesOf, List.filter_map, List.map_map]
  rfl

/-- The left join is the inner join and the left rows that match nothing. -/
theorem leftRows_perm (left : List Row) (table : Table) :
    (leftRows pairs left table).Perm (innerRows pairs left table.rows ++
      (unmatchedLeft pairs left table.rows).map (nullRight table)) :=
  flatMap_append_ite_perm (matchesOf pairs table.rows) _ (nullRight table) left

/-- The right join is the inner join and the right rows that match nothing. -/
theorem rightRows_perm (leftColumns : List String) (left right : List Row) :
    (rightRows pairs leftColumns left right).Perm (innerRows pairs left right ++
      (unmatchedRight pairs left right).map (nullLeft leftColumns)) := by
  have hmatches : (right.flatMap (matchesOfRight pairs left)).Perm (innerRows pairs left right) :=
    flatMap_filter_map_perm (rowsMatch pairs) combine left right
  have hright : (rightRows pairs leftColumns left right).Perm
      (right.flatMap (matchesOfRight pairs left) ++
        (unmatchedRight pairs left right).map (nullLeft leftColumns)) :=
    flatMap_append_ite_perm (matchesOfRight pairs left) _ (nullLeft leftColumns) right
  exact hright.trans (hmatches.append_right _)

/-- The null rows of the right join stand in it in the order of the right table. -/
theorem nullLeft_sublist_rightRows (leftColumns : List String) (left right : List Row) :
    ((unmatchedRight pairs left right).map (nullLeft leftColumns)).Sublist
      (rightRows pairs leftColumns left right) :=
  filter_map_sublist_flatMap (matchesOfRight pairs left) _ (nullLeft leftColumns) right

/-- Rows with distinct names on both sides are joined by putting their fields side by side. -/
theorem fields_combine {left right : Row} (h : Row.DistinctNames (left.names ++ right.names)) :
    (combine left right).fields = left.fields ++ right.fields := by
  have hleft : Row.empty.merge left = left := by
    have hdistinct : Row.DistinctNames (Row.empty.names ++ left.fields.map (·.1)) :=
      (List.pairwise_append.1 h).1
    calc Row.empty.merge left
        = ⟨(Row.empty.merge left).fields⟩ := rfl
      _ = ⟨Row.empty.fields ++ left.fields⟩ :=
          congrArg Row.mk (Row.fields_setAll_of_distinct hdistinct)
      _ = left := rfl
  rw [combine, hleft]
  exact Row.fields_setAll_of_distinct h

/-- Two rows with distinct names are both given back by the row that they are joined to. -/
theorem restrict_combine {left right : Row} (h : Row.DistinctNames (left.names ++ right.names)) :
    (combine left right).restrict left.names = left ∧
      (combine left right).restrict right.names = right := by
  have hfields := fields_combine h
  have hnames : Row.DistinctNames (combine left right).names := by
    rw [Row.names, hfields, List.map_append]
    exact h
  constructor
  · apply Row.restrict_eq_of_subset hnames
    intro field hmem
    rw [hfields]
    exact List.mem_append_left _ hmem
  · apply Row.restrict_eq_of_subset hnames
    intro field hmem
    rw [hfields]
    exact List.mem_append_right _ hmem

/-- A right row that is kept reads as itself, and as missing under the other columns of the left
side. -/
theorem get?_nullLeft {right : Row} (h : Row.DistinctNames right.names)
    (leftColumns : List String) (name : String) :
    (nullLeft leftColumns right).get? name = (right.get? name).or
      (if leftColumns.any (Text.sameName · name) then some .null else none) := by
  rw [nullLeft, Row.get?_merge h, Row.get?_nulls]

/-- The rows of a join of a given kind under the standard semantics. -/
def rowsOfKind (left : List Row) (leftColumns : List String) (table : Table) (clause : JoinClause)
    (kind : JoinKind) : List Row :=
  joinRows .standard left leftColumns table { clause with kind }

/-- The four joins of the same inputs: the inner join has one row for each matching pair, the left
rows in their order and the right rows in theirs; the right and the left join have these rows and
one more for each row of their side that matches nothing; the full join is the left join followed by
the null rows of the right join. A null row has the cells of the row that it was made from, and is
missing under the columns of the other side that this row has not. The row of a matching pair gives
back both of its rows when no name occurs twice in them. -/
theorem joins_decompose (left : List Row) (leftColumns : List String) (table : Table)
    (clause : JoinClause) :
    let pairs := orientedPairs clause
    let rows := rowsOfKind left leftColumns table clause
    let alone := left.filter fun l => !table.rows.any fun r => rowsMatch pairs l r
    let aloneRight := table.rows.filter fun r => !left.any fun l => rowsMatch pairs l r
    rows .inner = ((left ×ˢ table.rows).filter fun pair => rowsMatch pairs pair.1 pair.2).map
        (fun pair => combine pair.1 pair.2) ∧
      (rows .right).Perm (rows .inner ++ aloneRight.map (nullLeft leftColumns)) ∧
      (rows .left).Perm (rows .inner ++ alone.map (nullRight table)) ∧
      rows .full = rows .left ++ aloneRight.map (nullLeft leftColumns) ∧
      (aloneRight.map (nullLeft leftColumns)).Sublist (rows .right) ∧
      (∀ r ∈ aloneRight, Row.DistinctNames r.names → ∀ name,
        (nullLeft leftColumns r).get? name = (r.get? name).or
          (if leftColumns.any (Text.sameName · name) then some .null else none)) ∧
      (∀ l ∈ alone, ∀ name, (nullRight table l).get? name = (l.get? name).or
        (if table.columnNames.any (Text.sameName · name) then some .null else none)) ∧
      ∀ l ∈ left, ∀ r ∈ table.rows, rowsMatch pairs l r = true →
        Row.DistinctNames l.names → Row.DistinctNames r.names →
        (∀ a ∈ l.names, ∀ b ∈ r.names, Text.sameName a b = false) →
        (combine l r).restrict l.names = l ∧ (combine l r).restrict r.names = r := by
  intro pairs rows alone aloneRight
  have hinner : rows .inner = innerRows pairs left table.rows := nestedLoop_eq_innerRows left table
  have hleft : rows .left = leftRows pairs left table := nestedLoop_eq_leftRows left table
  have hright : rows .right = rightRows pairs leftColumns left table.rows :=
    rightJoin_eq_rightRows leftColumns left table
  have hfull : rows .full = leftRows pairs left table ++ aloneRight.map (nullLeft leftColumns) :=
    fullJoin_eq_append leftColumns left table
  rw [hinner, hleft, hright, hfull]
  refine ⟨innerRows_eq_product pairs left table.rows, rightRows_perm leftColumns left table.rows,
    leftRows_perm left table, rfl, nullLeft_sublist_rightRows leftColumns left table.rows, ?_, ?_,
    ?_⟩
  · exact fun r _ hr name => get?_nullLeft hr leftColumns name
  · exact fun l _ name => l.get?_fillMissing table.columnNames name
  · intro l _ r _ _ hl hr hdisjoint
    exact restrict_combine (List.pairwise_append.2 ⟨hl, hr, hdisjoint⟩)

/-- An employee is given back by the row that joins it to its department. The full join keeps the
other employee, who has no title, and the other department, which has no name. -/
theorem joins_decompose_department :
    let ann : Row := ⟨[("name", .text "Ann"), ("dept", .text "1")]⟩
    let bob : Row := ⟨[("name", .text "Bob"), ("dept", .text "2")]⟩
    let sales : Row := ⟨[("id", .text "1"), ("title", .text "Sales")]⟩
    let legal : Row := ⟨[("id", .text "3"), ("title", .text "Legal")]⟩
    let depts : Table := ⟨"depts", [.plain "id" "TEXT", .plain "title" "TEXT"], [sales, legal], []⟩
    let clause : JoinClause := ⟨.inner, ⟨"depts", some "d"⟩, [(⟨some "d", "id"⟩, ⟨none, "dept"⟩)]⟩
    let rows := rowsOfKind [ann, bob] ["name", "dept"] depts clause
    rowsMatch (orientedPairs clause) ann sales = true ∧ Row.DistinctNames ann.names ∧
      Row.DistinctNames sales.names ∧
      (∀ a ∈ ann.names, ∀ b ∈ sales.names, Text.sameName a b = false) ∧
      (combine ann sales).restrict ["name", "dept"] = ann ∧
      (combine ann sales).restrict ["id", "title"] = sales ∧
      rows .inner = [combine ann sales] ∧
      (rows .left).Perm [combine ann sales, nullRight depts bob] ∧
      (rows .right).Perm [combine ann sales, nullLeft ["name", "dept"] legal] ∧
      rows .full = rows .left ++ [nullLeft ["name", "dept"] legal] ∧
      (nullRight depts bob).get? "name" = some (.text "Bob") ∧
      (nullRight depts bob).get? "title" = some .null ∧
      (nullLeft ["name", "dept"] legal).get? "name" = some .null ∧
      (nullLeft ["name", "dept"] legal).get? "title" = some (.text "Legal") := by
  intro ann bob sales legal depts clause rows
  have hmatch : rowsMatch (orientedPairs clause) ann sales = true := by decide +kernel
  have hann : Row.DistinctNames ann.names := by unfold Row.DistinctNames; decide +kernel
  have hsales : Row.DistinctNames sales.names := by unfold Row.DistinctNames; decide +kernel
  have hlegal : Row.DistinctNames legal.names := hsales
  have hdisjoint : ∀ a ∈ ann.names, ∀ b ∈ sales.names, Text.sameName a b = false := by
    decide +kernel
  have hpairs : (([ann, bob] ×ˢ depts.rows).filter fun pair =>
      rowsMatch (orientedPairs clause) pair.1 pair.2) = [(ann, sales)] := by decide +kernel
  have halone : ([ann, bob].filter fun l =>
      !depts.rows.any fun r => rowsMatch (orientedPairs clause) l r) = [bob] := by decide +kernel
  have haloneRight : (depts.rows.filter fun r =>
      !List.any [ann, bob] fun l => rowsMatch (orientedPairs clause) l r) = [legal] := by
    decide +kernel
  obtain ⟨hinner, hright, hleft, hfull, -, hnullLeft, hnullRight, hback⟩ :=
    joins_decompose [ann, bob] ["name", "dept"] depts clause
  rw [hpairs] at hinner
  rw [haloneRight] at hright hfull hnullLeft
  rw [halone] at hleft hnullRight
  rw [hinner] at hright hleft
  obtain ⟨hannBack, hsalesBack⟩ :=
    hback ann List.mem_cons_self sales List.mem_cons_self hmatch hann hsales hdisjoint
  refine ⟨hmatch, hann, hsales, hdisjoint, hannBack, hsalesBack, hinner, hleft, hright, hfull,
    ?_, ?_, ?_, ?_⟩
  · rw [hnullRight bob List.mem_cons_self]
    decide +kernel
  · rw [hnullRight bob List.mem_cons_self]
    decide +kernel
  · rw [hnullLeft legal List.mem_cons_self hlegal]
    decide +kernel
  · rw [hnullLeft legal List.mem_cons_self hlegal]
    decide +kernel

end SqlEngine.Join
