import SqlEngine.Value

/-!
# Rows

A row is an ordered list of named cells. Names are compared without regard to the case of ASCII
letters. Writing to a name that is there keeps the field's place and spelling; writing to a new
name appends a field. Every row built from the empty one by these operations has distinct names.
-/
namespace SqlEngine

/-- Named cells in field order. -/
structure Row where
  fields : List (String × Value)
deriving DecidableEq, Inhabited

namespace Row

def empty : Row := ⟨[]⟩

/-- The names of the fields, in order. -/
def names (row : Row) : List String := row.fields.map (·.1)

/-- The cells, in field order. -/
def values (row : Row) : List Value := row.fields.map (·.2)

/-- The cell of the first field with the given name. -/
def get? (row : Row) (name : String) : Option Value :=
  (row.fields.find? fun field => Text.sameName field.1 name).map (·.2)

def contains (row : Row) (name : String) : Bool :=
  row.fields.any fun field => Text.sameName field.1 name

/-- The cell of a field, missing if there is no such field. -/
def getD (row : Row) (name : String) : Value := (row.get? name).getD .null

/-- Writes to the first field with the given name, or appends one. -/
def setField (name : String) (value : Value) : List (String × Value) → List (String × Value)
  | [] => [(name, value)]
  | field :: rest =>
    if Text.sameName field.1 name then (field.1, value) :: rest
    else field :: setField name value rest

/-- The row with one cell written. -/
def set (row : Row) (name : String) (value : Value) : Row := ⟨setField name value row.fields⟩

theorem map_fst_setField (name : String) (value : Value) (fields : List (String × Value)) :
    (setField name value fields).map (·.1) =
      if fields.any (fun field => Text.sameName field.1 name) then fields.map (·.1)
      else fields.map (·.1) ++ [name] := by
  induction fields with
  | nil => rfl
  | cons field rest ih =>
    by_cases h : Text.sameName field.1 name
    · simp [setField, h]
    · have h : Text.sameName field.1 name = false := Bool.eq_false_iff.2 h
      have hset : setField name value (field :: rest) = field :: setField name value rest := by
        simp [setField, h]
      rw [hset, List.map_cons, ih, List.any_cons, h, Bool.false_or]
      split <;> rfl

/-- Writing a cell adds a name at the end or leaves the names alone. -/
theorem names_set (row : Row) (name : String) (value : Value) :
    (row.set name value).names =
      if row.contains name then row.names else row.names ++ [name] :=
  map_fst_setField name value row.fields

/-- A cell that was written is read under every spelling of its name, and no other cell changes. -/
theorem get?_set (row : Row) (name other : String) (value : Value) :
    (row.set name value).get? other =
      if Text.sameName name other then some value else row.get? other := by
  obtain ⟨fields⟩ := row
  simp only [get?, set]
  induction fields with
  | nil => by_cases h : Text.sameName name other <;> simp [setField, h]
  | cons field rest ih =>
    by_cases h : Text.sameName field.1 name
    · by_cases ho : Text.sameName name other
      · simp [setField, h, ho, Text.sameName_congr h]
      · simp [setField, h, ho, Text.sameName_congr h]
    · by_cases hf : Text.sameName field.1 other
      · have ho : Text.sameName name other = false := by
          rw [Bool.eq_false_iff]
          intro ho
          rw [Text.sameName_comm name other] at ho
          exact h (Text.sameName_trans hf ho)
        simp [setField, h, hf, ho]
      · simpa [setField, h, hf] using ih

/-- The row with the fields written one after another. -/
def setAll (row : Row) (fields : List (String × Value)) : Row :=
  fields.foldl (fun r field => r.set field.1 field.2) row

/-- A row of the given fields; of fields with the same name the first gives the place and the
spelling, and the last gives the cell. -/
def ofFields (fields : List (String × Value)) : Row := empty.setAll fields

/-- A row of missing values. -/
def nulls (names : List String) : Row := ofFields (names.map fun name => (name, .null))

/-- The row with all cells of another row written into it. -/
def merge (row other : Row) : Row := row.setAll other.fields

/-- The row with a missing value appended under one name, unless the name is there. -/
def fillOne (row : Row) (name : String) : Row :=
  if row.contains name then row else ⟨row.fields ++ [(name, .null)]⟩

/-- The row with a missing value appended under each name that is not there. -/
def fillMissing (row : Row) (names : List String) : Row := names.foldl fillOne row

end Row
end SqlEngine
