import SqlEngine.Grouping
import SqlEngine.Proofs.Row.Shape
import SqlEngine.Scope

/-!
# Rows without a column

A row without the cells under one name, in whatever spelling. Every way of making rows out of rows
goes on in the same way without the name: what is written under another name is written as before,
and what is written under this one leaves no trace. Whoever asks for another name sees no
difference.
-/
namespace SqlEngine

/-- The name is another one than that of the column. -/
def Text.isOther (column name : String) : Bool := !sameName name column

theorem Text.isOther_eq_false {column name : String} :
    isOther column name = false ↔ sameName name column = true := by
  rw [isOther, Bool.not_eq_false']

theorem Text.isOther_congr {name other : String} (h : sameName name other = true)
    (column : String) : isOther column name = isOther column other := by
  rw [isOther, isOther, sameName_congr h]

/-- Whatever has the name of another column is itself of another name. -/
theorem Text.isOther_and_sameName {column name : String} (h : isOther column name = true)
    (other : String) : (isOther column other && sameName other name) = sameName other name := by
  by_cases hsame : sameName other name = true
  · rw [isOther_congr hsame, h, Bool.true_and]
  · rw [Bool.eq_false_iff.2 hsame, Bool.and_false]

namespace Row

/-- The row without its cells under a name. -/
def without (column : String) (row : Row) : Row :=
  ⟨row.fields.filter fun field => Text.isOther column field.1⟩

variable {column name : String}

theorem get?_without (h : Text.isOther column name = true) (row : Row) :
    (row.without column).get? name = row.get? name := by
  simp only [get?, without, List.find?_filter, Bool.decide_and, Bool.decide_eq_true,
    Text.isOther_and_sameName h]

theorem getD_without (h : Text.isOther column name = true) (row : Row) :
    (row.without column).getD name = row.getD name := by
  rw [getD, getD, get?_without h]

theorem contains_without (h : Text.isOther column name = true) (row : Row) :
    (row.without column).contains name = row.contains name := by
  simp only [contains, without, List.any_filter, Text.isOther_and_sameName h]

theorem filter_setField_of_same (h : Text.sameName name column = true) (value : Value)
    (fields : List (String × Value)) :
    (setField name value fields).filter (fun field => Text.isOther column field.1) =
      fields.filter fun field => Text.isOther column field.1 := by
  have hname : Text.isOther column name = false := Text.isOther_eq_false.2 h
  induction fields with
  | nil => simp [setField, hname]
  | cons field rest ih =>
    rw [setField]
    split
    · next hsame =>
      have hfield : Text.isOther column field.1 = false := by
        rw [Text.isOther_congr hsame, hname]
      simp [hfield]
    · rw [List.filter_cons, List.filter_cons, ih]

theorem filter_setField_of_other (h : Text.isOther column name = true) (value : Value)
    (fields : List (String × Value)) :
    (setField name value fields).filter (fun field => Text.isOther column field.1) =
      setField name value (fields.filter fun field => Text.isOther column field.1) := by
  induction fields with
  | nil => simp [setField, h]
  | cons field rest ih =>
    rw [setField]
    split
    · next hsame =>
      have hfield : Text.isOther column field.1 = true := by
        rw [Text.isOther_congr hsame, h]
      simp [hfield, setField, hsame]
    · next hsame =>
      cases hfield : Text.isOther column field.1 with
      | true => simp [hfield, setField, hsame, ih]
      | false => simp [hfield, ih]

/-- What is written under the name leaves no trace. -/
theorem without_set_of_same (h : Text.sameName name column = true) (row : Row) (value : Value) :
    (row.set name value).without column = row.without column :=
  congrArg Row.mk (filter_setField_of_same h value row.fields)

theorem without_set_of_other (h : Text.isOther column name = true) (row : Row) (value : Value) :
    (row.set name value).without column = (row.without column).set name value :=
  congrArg Row.mk (filter_setField_of_other h value row.fields)

theorem without_setAll (row : Row) (fields : List (String × Value)) :
    (row.setAll fields).without column =
      (row.without column).setAll (fields.filter fun field => Text.isOther column field.1) := by
  induction fields generalizing row with
  | nil => rfl
  | cons field rest ih =>
    rw [setAll_cons, ih]
    cases h : Text.isOther column field.1 with
    | true =>
      rw [without_set_of_other h, List.filter_cons, if_pos h]
      rfl
    | false =>
      rw [without_set_of_same (Text.isOther_eq_false.1 h), List.filter_cons, if_neg (by simp [h])]

theorem without_merge (row other : Row) :
    (row.merge other).without column = (row.without column).merge (other.without column) :=
  without_setAll row other.fields

theorem without_nulls (names : List String) :
    (nulls names).without column = nulls (names.filter (Text.isOther column)) := by
  rw [nulls, nulls, ofFields, ofFields, without_setAll, List.filter_map]
  rfl

theorem without_fillOne (row : Row) (name : String) :
    (row.fillOne name).without column =
      if Text.isOther column name then (row.without column).fillOne name
      else row.without column := by
  cases h : Text.isOther column name with
  | true =>
    rw [if_pos rfl, fillOne, fillOne, contains_without h]
    split
    · rfl
    · simp [without, h]
  | false =>
    rw [fillOne]
    split
    · rfl
    · simp [without, h]

theorem without_fillMissing (row : Row) (names : List String) :
    (row.fillMissing names).without column =
      (row.without column).fillMissing (names.filter (Text.isOther column)) := by
  induction names generalizing row with
  | nil => rfl
  | cons name rest ih =>
    have hstep : row.fillMissing (name :: rest) = (row.fillOne name).fillMissing rest := rfl
    rw [hstep, ih, without_fillOne, List.filter_cons]
    cases Text.isOther column name <;> rfl

theorem filter_addName (names : List String) (name : String) :
    (addName names name).filter (Text.isOther column) =
      if Text.isOther column name then addName (names.filter (Text.isOther column)) name
      else names.filter (Text.isOther column) := by
  cases h : Text.isOther column name with
  | true =>
    have hany : (names.filter (Text.isOther column)).any (Text.sameName · name) =
        names.any (Text.sameName · name) := by
      simp only [List.any_filter, Text.isOther_and_sameName h]
    rw [if_pos rfl, addName, addName, hany]
    split
    · rfl
    · simp [h]
  | false =>
    rw [addName]
    split
    · rfl
    · simp [h]

theorem filter_addNames (names more : List String) :
    (addNames names more).filter (Text.isOther column) =
      addNames (names.filter (Text.isOther column)) (more.filter (Text.isOther column)) := by
  induction more generalizing names with
  | nil => rfl
  | cons name rest ih =>
    have hstep : addNames names (name :: rest) = addNames (addName names name) rest := rfl
    rw [hstep, ih, filter_addName, List.filter_cons]
    cases Text.isOther column name <;> rfl

/-- Rows are grouped alike by other columns. -/
theorem groupKey_without {columns : List String} (h : ∀ name ∈ columns, Text.isOther column name)
    (row : Row) : (row.without column).groupKey columns = row.groupKey columns := by
  refine List.map_congr_left fun name hname => ?_
  rw [getD_without (h name hname)]

end Row

/-- The scope without the cells under a name in the rows of the tables. What was computed from the
rows stays as it is. -/
def Scope.without (column : String) : Scope → Scope
  | .empty => .empty
  | .row r => .row (r.without column)
  | .layered top base => .layered top (base.without column)
  | .group rows computed => .group (rows.map (·.without column)) computed

theorem Scope.column?_without {column name : String} (h : Text.isOther column name = true)
    (scope : Scope) : (scope.without column).column? name = scope.column? name := by
  cases scope with
  | empty => rfl
  | row r => exact r.get?_without h
  | layered top base => simp only [without, column?, Row.get?_without h]
  | group rows computed =>
    cases rows with
    | nil => rfl
    | cons first rest => simp [without, column?, Row.get?_without h]

end SqlEngine
