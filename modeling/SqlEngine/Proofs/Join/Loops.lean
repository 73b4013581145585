import SqlEngine.Join

/-!
# What the loops of a join find

Each loop of a join is read off row by row: a row of the outer side yields its matches, and behind
them, if it has none and is to be kept, one row with missing values. The marks of a full join tell
which right rows the left rows up to now have matched; a further left row keeps that true.
-/
namespace SqlEngine.Join

/-- The joined rows of one left row. -/
def matchesOf (pairs : List (String × String)) (right : List Row) (left : Row) : List Row :=
  (right.filter (rowsMatch pairs left)).map (combine left)

/-- The joined rows of one right row. -/
def matchesOfRight (pairs : List (String × String)) (left : List Row) (right : Row) : List Row :=
  (left.filter (rowsMatch pairs · right)).map (combine · right)

/-- Every match, left row by left row. -/
def innerRows (pairs : List (String × String)) (left right : List Row) : List Row :=
  left.flatMap (matchesOf pairs right)

/-- Every match, left row by left row, and the left rows that match nothing in their places. -/
def leftRows (pairs : List (String × String)) (left : List Row) (table : Table) : List Row :=
  left.flatMap fun row => matchesOf pairs table.rows row ++
    if !table.rows.any (rowsMatch pairs row) then [nullRight table row] else []

/-- Every match, right row by right row, and the right rows that match nothing in their places. -/
def rightRows (pairs : List (String × String)) (leftColumns : List String) (left right : List Row) :
    List Row :=
  right.flatMap fun row => matchesOfRight pairs left row ++
    if !left.any (rowsMatch pairs · row) then [nullLeft leftColumns row] else []

/-- The right rows that match no left row. -/
def unmatchedRight (pairs : List (String × String)) (left right : List Row) : List Row :=
  right.filter fun row => !left.any (rowsMatch pairs · row)

/-- The related members of a list one by one. -/
theorem flatMap_ite_singleton {β γ : Type} (p : β → Bool) (f : β → γ) (bs : List β) :
    (bs.flatMap fun b => if p b then [f b] else []) = (bs.filter p).map f := by
  induction bs with
  | nil => rfl
  | cons b rest ih =>
    rw [List.flatMap_cons, ih]
    cases h : p b with
    | true => rw [List.filter_cons_of_pos h]; rfl
    | false => rw [List.filter_cons_of_neg (by simp [h])]; rfl

theorem toList_ite_push (keep : Bool) (rows : Array Row) (row : Row) :
    (if keep then rows.push row else rows).toList = rows.toList ++ if keep then [row] else [] := by
  cases keep <;> simp

/-- A loop that pushes some rows for each member of a list. -/
theorem toList_foldl_of_step {α : Type} {step : Array Row → α → Array Row} {found : α → List Row}
    (hstep : ∀ result a, (step result a).toList = result.toList ++ found a) (as : List α)
    (result : Array Row) : (as.foldl step result).toList = result.toList ++ as.flatMap found := by
  induction as generalizing result with
  | nil => simp
  | cons a rest ih => rw [List.foldl_cons, ih, hstep, List.flatMap_cons, List.append_assoc]

section Inner

variable (isMatch : Row → Bool) (joined : Row → Row) (rows : List Row) (found : Found)

/-- The rows that an inner loop finds. -/
theorem rows_foldl_meet :
    (rows.foldl (fun found row => found.meet (isMatch row) (joined row)) found).rows.toList =
      found.rows.toList ++ (rows.filter isMatch).map joined := by
  induction rows generalizing found with
  | nil => simp
  | cons row rest ih =>
    rw [List.foldl_cons, ih]
    cases h : isMatch row <;> simp [Found.meet, h]

/-- An inner loop notes whether it finds any. -/
theorem matched_foldl_meet :
    (rows.foldl (fun found row => found.meet (isMatch row) (joined row)) found).matched =
      (found.matched || rows.any isMatch) := by
  induction rows generalizing found with
  | nil => simp
  | cons row rest ih =>
    rw [List.foldl_cons, ih]
    cases h : isMatch row <;> simp [Found.meet, h]

end Inner

variable {pairs : List (String × String)}

theorem toList_nestedStep (keepUnmatched : Bool) (table : Table) (result : Array Row) (left : Row) :
    (nestedStep pairs keepUnmatched table result left).toList = result.toList ++
      (matchesOf pairs table.rows left ++
        if !table.rows.any (rowsMatch pairs left) && keepUnmatched then [nullRight table left]
        else []) := by
  rw [nestedStep, toList_ite_push, rows_foldl_meet, matched_foldl_meet, List.append_assoc]
  rfl

theorem nestedLoop_eq_innerRows (left : List Row) (table : Table) :
    nestedLoop pairs false left table = innerRows pairs left table.rows := by
  rw [nestedLoop, toList_foldl_of_step (toList_nestedStep false table)]
  simp [innerRows]

theorem nestedLoop_eq_leftRows (left : List Row) (table : Table) :
    nestedLoop pairs true left table = leftRows pairs left table := by
  rw [nestedLoop, toList_foldl_of_step (toList_nestedStep true table)]
  simp [leftRows]

theorem toList_rightStep (leftColumns : List String) (left : List Row) (result : Array Row)
    (right : Row) :
    (rightStep pairs leftColumns left result right).toList = result.toList ++
      (matchesOfRight pairs left right ++
        if !left.any (rowsMatch pairs · right) then [nullLeft leftColumns right] else []) := by
  rw [rightStep, toList_ite_push, rows_foldl_meet (rowsMatch pairs · right) (combine · right),
    matched_foldl_meet (rowsMatch pairs · right) (combine · right), List.append_assoc]
  rfl

theorem rightJoin_eq_rightRows (leftColumns : List String) (left : List Row) (table : Table) :
    rightJoin pairs leftColumns left table = rightRows pairs leftColumns left table.rows := by
  rw [rightJoin, toList_foldl_of_step (toList_rightStep leftColumns left)]
  simp [rightRows]

section Full

/-- The marks tell which right rows some of the left rows match. -/
def Marked (pairs : List (String × String)) (seen right : List Row) (marks : Array Bool) : Prop :=
  marks.toList = right.map fun row => seen.any (rowsMatch pairs · row)

variable {left : Row}

/-- The inner loop of a full join finds the rows that it would find without marks. -/
theorem fst_foldl_fullMeet (rows : List Row) (place : Nat) (found : Found) (marks : Array Bool) :
    ((rows.zipIdx place).foldl (fullMeet pairs left) (found, marks)).1 =
      rows.foldl (fun found row => found.meet (rowsMatch pairs left row) (combine left row))
        found := by
  induction rows generalizing place found marks with
  | nil => rfl
  | cons row rest ih =>
    rw [List.zipIdx_cons, List.foldl_cons, List.foldl_cons]
    exact ih _ _ _

theorem toList_mark {marks : Array Bool} {done todo : List Bool} {mark : Bool}
    (hmarks : marks.toList = done ++ mark :: todo) (isMatch : Bool) :
    (if isMatch then marks.setIfInBounds done.length true else marks).toList =
      done ++ (mark || isMatch) :: todo := by
  cases isMatch with
  | true => simp [hmarks]
  | false => simp [hmarks]

/-- The inner loop of a full join marks the rows that match, and no others. -/
theorem snd_foldl_fullMeet (mark : Row → Bool) (rows : List Row) (done : List Bool) (found : Found)
    (marks : Array Bool) (hmarks : marks.toList = done ++ rows.map mark) :
    ((rows.zipIdx done.length).foldl (fullMeet pairs left) (found, marks)).2.toList =
      done ++ rows.map fun row => mark row || rowsMatch pairs left row := by
  induction rows generalizing done found marks with
  | nil => exact hmarks
  | cons row rest ih =>
    have hnext := toList_mark hmarks (rowsMatch pairs left row)
    have hplace : done.length + 1 = (done ++ [mark row || rowsMatch pairs left row]).length := by
      simp
    rw [List.append_cons] at hnext
    have htail := ih _ (found.meet (rowsMatch pairs left row) (combine left row)) _ hnext
    rw [← hplace, ← List.append_cons] at htail
    exact htail

/-- One more left row. The rows are those of a left join. -/
theorem rows_fullStep (table : Table) (state : FullState) (left : Row) :
    (fullStep pairs table state left).rows = nestedStep pairs true table state.rows left := by
  simp only [fullStep, nestedStep, fst_foldl_fullMeet, Bool.and_true]

/-- One more left row keeps the marks right. -/
theorem Marked.step {table : Table} {state : FullState} {seen : List Row}
    (h : Marked pairs seen table.rows state.rightMatched) (left : Row) :
    Marked pairs (seen ++ [left]) table.rows
      (fullStep pairs table state left).rightMatched := by
  have hmarks : (fullStep pairs table state left).rightMatched.toList =
      table.rows.map fun row => seen.any (rowsMatch pairs · row) || rowsMatch pairs left row :=
    snd_foldl_fullMeet _ table.rows [] ⟨state.rows, false⟩ _ h
  rw [Marked, hmarks]
  simp

theorem rows_foldl_fullStep (table : Table) (left : List Row) (state : FullState) :
    (left.foldl (fullStep pairs table) state).rows =
      left.foldl (nestedStep pairs true table) state.rows := by
  induction left generalizing state with
  | nil => rfl
  | cons row rest ih => rw [List.foldl_cons, List.foldl_cons, ih, rows_fullStep]

theorem Marked.run {table : Table} {state : FullState} {seen : List Row}
    (h : Marked pairs seen table.rows state.rightMatched) (left : List Row) :
    Marked pairs (seen ++ left) table.rows
      (left.foldl (fullStep pairs table) state).rightMatched := by
  induction left generalizing state seen with
  | nil =>
    rw [List.append_nil]
    exact h
  | cons row rest ih =>
    rw [List.foldl_cons, List.append_cons]
    exact ih (h.step row)

/-- A full join is a left join, and behind it the right rows that no left row matches. -/
theorem fullJoin_eq_append (leftColumns : List String) (left : List Row) (table : Table) :
    fullJoin pairs leftColumns left table = leftRows pairs left table ++
      (unmatchedRight pairs left table.rows).map (nullLeft leftColumns) := by
  let start : FullState := ⟨#[], Array.replicate table.rows.length false⟩
  have hstart : Marked pairs [] table.rows start.rightMatched := by
    rw [Marked, Array.toList_replicate]
    exact List.map_const'.symm
  have hmarks : (left.foldl (fullStep pairs table) start).rightMatched.toList =
      table.rows.map fun row => left.any (rowsMatch pairs · row) := hstart.run left
  have hrows : (left.foldl (fullStep pairs table) start).rows.toList =
      leftRows pairs left table := by
    rw [rows_foldl_fullStep]
    exact nestedLoop_eq_leftRows left table
  have hkeep : ∀ (result : Array Row) (right : Row × Bool),
      (if !right.2 then result.push (nullLeft leftColumns right.1) else result).toList =
        result.toList ++ if !right.2 then [nullLeft leftColumns right.1] else [] :=
    fun result right => toList_ite_push (!right.2) result _
  calc fullJoin pairs leftColumns left table
    _ = leftRows pairs left table ++ (table.rows.zip (table.rows.map fun row =>
          left.any (rowsMatch pairs · row))).flatMap fun right =>
            if !right.2 then [nullLeft leftColumns right.1] else [] := by
      rw [← hmarks, ← hrows]
      exact toList_foldl_of_step hkeep _ _
    _ = leftRows pairs left table ++ table.rows.flatMap fun row =>
          if !left.any (rowsMatch pairs · row) then [nullLeft leftColumns row] else [] := by
      rw [← List.map_prod_left_eq_zip, List.flatMap_map]
    _ = _ := by rw [flatMap_ite_singleton, unmatchedRight]

end Full

end SqlEngine.Join
