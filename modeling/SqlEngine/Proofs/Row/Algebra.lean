import SqlEngine.Proofs.Row.Shape

/-!
# Rows as ordered maps

The rows that are built from nothing are those with distinct names. Such a row is nothing but its
names in their order and what is read under each of them, so writing, merging and filling up obey
the laws of an ordered map as equations between lists of fields. Of a row with a repeated name
nothing is said: writing to it changes the first of the fields alone.
-/
namespace SqlEngine.Row

/-- The rows that are built from nothing by writing cells, merging and filling up. -/
inductive Built : Row → Prop where
  | empty : Built empty
  | nulls (names : List String) : Built (nulls names)
  | ofFields (fields : List (String × Value)) : Built (ofFields fields)
  | set {row : Row} (name : String) (value : Value) (h : Built row) : Built (row.set name value)
  | merge {row other : Row} (h : Built row) (hother : Built other) : Built (row.merge other)
  | fillMissing {row : Row} (names : List String) (h : Built row) : Built (row.fillMissing names)

section Names

theorem any_addName (names : List String) (name other : String) :
    (addName names name).any (Text.sameName · other) =
      (names.any (Text.sameName · other) || Text.sameName name other) := by
  rw [addName]
  split
  · next hthere =>
    obtain ⟨known, hknown, hsame⟩ := List.any_eq_true.1 hthere
    cases hname : Text.sameName name other with
    | false => rw [Bool.or_false]
    | true =>
      rw [Bool.or_true]
      exact List.any_eq_true.2 ⟨known, hknown, Text.sameName_trans hsame hname⟩
  · rw [List.any_append, List.any_cons, List.any_nil, Bool.or_false]

theorem any_addNames (names more : List String) (other : String) :
    (addNames names more).any (Text.sameName · other) =
      (names.any (Text.sameName · other) || more.any (Text.sameName · other)) := by
  induction more generalizing names with
  | nil => exact (Bool.or_false _).symm
  | cons name rest ih =>
    have hstep : addNames names (name :: rest) = addNames (addName names name) rest := rfl
    rw [hstep, ih, any_addName, List.any_cons, Bool.or_assoc]

theorem addNames_addName (names more : List String) (name : String) :
    addNames names (addName more name) = addName (addNames names more) name := by
  by_cases hthere : more.any (Text.sameName · name) = true
  · have hwhole : (addNames names more).any (Text.sameName · name) = true := by
      rw [any_addNames, hthere, Bool.or_true]
    rw [addName, if_pos hthere, addName, if_pos hwhole]
  · rw [addName, if_neg hthere, addNames_append]
    rfl

/-- Names are added to names in any grouping. -/
theorem addNames_assoc (names more others : List String) :
    addNames names (addNames more others) = addNames (addNames names more) others := by
  induction others generalizing more with
  | nil => rfl
  | cons name rest ih =>
    calc addNames names (addNames more (name :: rest))
      _ = addNames names (addNames (addName more name) rest) := rfl
      _ = addNames (addNames names (addName more name)) rest := ih _
      _ = addNames (addName (addNames names more) name) rest := by rw [addNames_addName]
      _ = addNames (addNames names more) (name :: rest) := rfl

end Names

variable {row other : Row}

theorem names_ofFields_distinct (fields : List (String × Value)) :
    DistinctNames (ofFields fields).names := by
  rw [ofFields, names_setAll]
  exact addNames_distinct .nil _

/-- Writing, merging and filling up keep names distinct. -/
theorem Built.distinct (h : Built row) : DistinctNames row.names := by
  induction h with
  | empty => exact .nil
  | nulls names => exact names_ofFields_distinct _
  | ofFields fields => exact names_ofFields_distinct fields
  | set name value _ ih =>
    rw [names_set_eq_addName]
    exact addName_distinct ih name
  | merge _ _ ih _ =>
    rw [names_merge]
    exact addNames_distinct ih _
  | fillMissing names _ ih =>
    rw [names_fillMissing]
    exact addNames_distinct ih names

/-- Written from nothing, fields with distinct names stay as they are. -/
theorem ofFields_fields (h : DistinctNames row.names) : ofFields row.fields = row := by
  have hfields : (Row.empty.setAll row.fields).fields = Row.empty.fields ++ row.fields :=
    fields_setAll_of_distinct h
  exact congrArg Row.mk hfields

/-- A row can be built exactly if its names are distinct. -/
theorem built_iff : Built row ↔ DistinctNames row.names := by
  refine ⟨Built.distinct, fun h => ?_⟩
  rw [← ofFields_fields h]
  exact .ofFields row.fields

/-- Rows with the same distinct names and the same cell under every name are equal. -/
theorem ext_of_distinct (h : DistinctNames row.names) (hnames : row.names = other.names)
    (hget : ∀ name, row.get? name = other.get? name) : row = other := by
  have hgetD : row.getD = other.getD := by
    funext name
    rw [getD, getD, hget]
  have hvalues : row.values = other.values := by
    rw [← map_getD_names h, ← map_getD_names (hnames ▸ h), hnames, hgetD]
  have hfields : row.fields = other.fields := by
    rw [← List.zip_unzip row.fields, ← List.zip_unzip other.fields, List.unzip_eq_map,
      List.unzip_eq_map]
    exact congrArg₂ List.zip hnames hvalues
  exact congrArg Row.mk hfields

theorem setField_of_contains {name : String} {fields : List (String × Value)}
    (h : DistinctNames (fields.map (·.1))) (hthere : contains ⟨fields⟩ name = true)
    (value : Value) : setField name value fields = fields.map fun field =>
      (field.1, if Text.sameName field.1 name then value else field.2) := by
  induction fields with
  | nil => cases hthere
  | cons field rest ih =>
    rw [setField, List.map_cons]
    by_cases hfirst : Text.sameName field.1 name = true
    · have hrest : rest.map (fun later =>
          (later.1, if Text.sameName later.1 name then value else later.2)) = rest := by
        refine (List.map_congr_left fun later hlater => ?_).trans (List.map_id rest)
        rw [sameName_eq_false_of_first h hfirst later hlater]
        rfl
      rw [if_pos hfirst, if_pos hfirst, hrest]
    · have hbehind : contains ⟨rest⟩ name = true := by
        rw [contains, List.any_cons, Bool.or_eq_true] at hthere
        exact hthere.resolve_left hfirst
      rw [if_neg hfirst, if_neg hfirst, ih (List.pairwise_cons.1 h).2 hbehind]

/-- Writing under a name that is there keeps every field in its place and every spelling, and
changes the one cell; a new name comes behind all fields. -/
theorem fields_set (h : DistinctNames row.names) (name : String) (value : Value) :
    (row.set name value).fields =
      if row.contains name then
        row.fields.map fun field =>
          (field.1, if Text.sameName field.1 name then value else field.2)
      else row.fields ++ [(name, value)] := by
  split
  · next hthere => exact setField_of_contains h hthere value
  · next hnew => exact setField_of_not_contains (Bool.eq_false_iff.2 hnew) value

theorem merge_assoc {third : Row} (h : DistinctNames row.names) (hother : DistinctNames other.names)
    (hthird : DistinctNames third.names) :
    (row.merge other).merge third = row.merge (other.merge third) := by
  have hpair : DistinctNames (other.merge third).names := by
    rw [names_merge]
    exact addNames_distinct hother _
  refine ext_of_distinct ?_ ?_ fun name => ?_
  · rw [names_merge, names_merge]
    exact addNames_distinct (addNames_distinct h _) _
  · rw [names_merge, names_merge, names_merge, names_merge, addNames_assoc]
  · rw [get?_merge hthird, get?_merge hother, get?_merge hpair, get?_merge hthird, Option.or_assoc]

theorem merge_self (h : DistinctNames row.names) : row.merge row = row := by
  have hnames : (row.merge row).names = row.names := names_setAll_of_mem fun _ hname => hname
  refine ext_of_distinct (hnames ▸ h) hnames fun name => ?_
  rw [get?_merge h, Option.or_self]

/-- Rows that are built from nothing are ordered maps. Their names are distinct; writing changes the
cell of the name, keeps places and spellings and puts a new name last; merging is associative and
idempotent, changes nothing if one side is empty, and lets the cells of the second row win. -/
theorem built_orderedMap {third : Row} (h : Built row) (hother : Built other) (hthird : Built third)
    (name : String) (value : Value) :
    (row.names.Pairwise fun a b => Text.sameName a b = false) ∧
      (row.set name value).fields =
        (if row.contains name then
          row.fields.map fun field =>
            (field.1, if Text.sameName field.1 name then value else field.2)
        else row.fields ++ [(name, value)]) ∧
      (row.merge other).merge third = row.merge (other.merge third) ∧
      empty.merge row = row ∧ row.merge empty = row ∧ row.merge row = row ∧
      (row.merge other).get? name =
        if other.contains name then other.get? name else row.get? name := by
  refine ⟨h.distinct, fields_set h.distinct name value,
    merge_assoc h.distinct hother.distinct hthird.distinct, ofFields_fields h.distinct, rfl,
    merge_self h.distinct, ?_⟩
  rw [get?_merge hother.distinct, ← isSome_get?]
  cases other.get? name <;> rfl

/-- Two spellings of one name are one field, which keeps the spelling and place it got first. -/
theorem built_orderedMap_spellings :
    let left := (empty.set "Id" (.text "1")).set "name" (.text "Ann")
    let right := ofFields [("ID", .text "2"), ("age", .null)]
    let more := (nulls ["AGE"]).fillMissing ["city", "age"]
    Built left ∧ Built right ∧ Built more ∧
      ((left.merge right).merge more).fields =
        [("Id", .text "2"), ("name", .text "Ann"), ("age", .null), ("city", .null)] ∧
      (left.merge right).merge more = left.merge (right.merge more) ∧ left.merge left = left ∧
      (left.set "ID" .null).fields = [("Id", .null), ("name", .text "Ann")] ∧
      (left.merge right).get? "ID" = some (.text "2") := by
  intro left right more
  have hleft : Built left := (Built.empty.set _ _).set _ _
  have hright : Built right := .ofFields _
  have hmore : Built more := (Built.nulls _).fillMissing _
  obtain ⟨-, hset, hassoc, -, -, hself, hget⟩ := built_orderedMap hleft hright hmore "ID" .null
  refine ⟨hleft, hright, hmore, ?_, hassoc, hself, hset.trans ?_, hget.trans ?_⟩
  · simp [left, right, more, merge, ofFields, nulls, setAll, set, setField, fillMissing, fillOne,
      contains, empty, Text.sameName_eq_map_toUpper]
  · simp [left, contains, set, setField, empty, Text.sameName_eq_map_toUpper]
  · simp [right, ofFields, setAll, contains, get?, set, setField, empty,
      Text.sameName_eq_map_toUpper]

end SqlEngine.Row
