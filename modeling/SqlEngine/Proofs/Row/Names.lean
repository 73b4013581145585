import Mathlib.Data.List.Pairwise
import SqlEngine.Row

/-!
# Names of the fields of a row

Which names a row has after cells were written to it. Names are distinct when no two of them differ
only in the case of ASCII letters; a row that is built of fields with distinct names has exactly
these names, in the order in which they were given.
-/
namespace SqlEngine.Row

/-- No two of the names are the same name. -/
def DistinctNames (names : List String) : Prop :=
  names.Pairwise fun a b => Text.sameName a b = false

theorem DistinctNames.nodup {names : List String} (h : DistinctNames names) : names.Nodup := by
  refine List.Pairwise.imp ?_ h
  rintro a b hab rfl
  rw [Text.sameName_refl] at hab
  cases hab

/-- Among distinct names only one and the same is the same name. -/
theorem DistinctNames.eq_of_sameName {names : List String} (h : DistinctNames names) {a b : String}
    (ha : a ∈ names) (hb : b ∈ names) (hsame : Text.sameName a b = true) : a = b := by
  by_contra hne
  have hsymm : Std.Symm fun a b : String => Text.sameName a b = false := by
    constructor
    intro a b hab
    rw [Text.sameName_comm]
    exact hab
  have hdiffer := List.Pairwise.forall h ha hb hne
  rw [hdiffer] at hsame
  cases hsame

theorem contains_eq_any (row : Row) (name : String) :
    row.contains name = row.names.any (Text.sameName · name) := by
  simp only [contains, names, List.any_map]
  rfl

theorem contains_of_mem_names {row : Row} {name : String} (h : name ∈ row.names) :
    row.contains name = true := by
  rw [contains_eq_any, List.any_eq_true]
  exact ⟨name, h, Text.sameName_refl name⟩

/-- A cell is read alike under every spelling of its name. -/
theorem get?_congr (row : Row) {name other : String} (h : Text.sameName name other = true) :
    row.get? name = row.get? other := by
  have hfield : ∀ field : String × Value,
      Text.sameName field.1 name = Text.sameName field.1 other := by
    intro field
    rw [Text.sameName_comm field.1, Text.sameName_comm field.1, Text.sameName_congr h]
  simp only [get?, hfield]

/-- A cell that was written is read under every spelling of its name, and no other cell changes. -/
theorem getD_set (row : Row) (name other : String) (value : Value) :
    (row.set name value).getD other =
      if Text.sameName name other then value else row.getD other := by
  rw [getD, get?_set]
  split <;> rfl

theorem names_set_of_contains {row : Row} {name : String} (h : row.contains name = true)
    (value : Value) : (row.set name value).names = row.names := by
  rw [names_set, if_pos h]

theorem names_set_of_not_contains {row : Row} {name : String} (h : row.contains name = false)
    (value : Value) : (row.set name value).names = row.names ++ [name] := by
  rw [names_set, h]
  rfl

theorem setAll_cons (row : Row) (field : String × Value) (fields : List (String × Value)) :
    row.setAll (field :: fields) = (row.set field.1 field.2).setAll fields := rfl

/-- Writing to fields that are there keeps the names. -/
theorem names_setAll_of_mem {row : Row} {fields : List (String × Value)}
    (h : ∀ name ∈ fields.map (·.1), name ∈ row.names) : (row.setAll fields).names = row.names := by
  induction fields generalizing row with
  | nil => rfl
  | cons field rest ih =>
    have hfirst := h field.1 List.mem_cons_self
    have hset := names_set_of_contains (contains_of_mem_names hfirst) field.2
    rw [setAll_cons, ih, hset]
    intro name hname
    rw [hset]
    exact h name (List.mem_cons_of_mem field.1 hname)

theorem setField_of_not_contains {name : String} {fields : List (String × Value)}
    (h : contains ⟨fields⟩ name = false) (value : Value) :
    setField name value fields = fields ++ [(name, value)] := by
  induction fields with
  | nil => rfl
  | cons field rest ih =>
    simp only [contains, List.any_cons, Bool.or_eq_false_iff] at h
    rw [setField, h.1, ih h.2]
    rfl

/-- Writing under new and distinct names appends the fields. -/
theorem fields_setAll_of_distinct {row : Row} {fields : List (String × Value)}
    (h : DistinctNames (row.names ++ fields.map (·.1))) :
    (row.setAll fields).fields = row.fields ++ fields := by
  induction fields generalizing row with
  | nil => exact (List.append_nil _).symm
  | cons field rest ih =>
    have hnew : row.contains field.1 = false := by
      rw [contains_eq_any, List.any_eq_false]
      intro name hname
      have hpair := (List.pairwise_append.1 h).2.2 name hname field.1 List.mem_cons_self
      rw [hpair]
      exact Bool.false_ne_true
    have hset : row.set field.1 field.2 = ⟨row.fields ++ [field]⟩ := by
      rw [set, setField_of_not_contains hnew]
    have hrest : DistinctNames ((row.set field.1 field.2).names ++ rest.map (·.1)) := by
      have hnames : (⟨row.fields ++ [field]⟩ : Row).names = row.names ++ [field.1] :=
        List.map_append
      rw [hset, hnames, List.append_assoc, List.singleton_append]
      exact h
    rw [setAll_cons, ih hrest, hset, List.append_assoc, List.singleton_append]

/-- A row of missing values has the names it was made for. -/
theorem names_nulls {columns : List String} (h : DistinctNames columns) :
    (nulls columns).names = columns := by
  have hmap : (columns.map fun name => (name, Value.null)).map (·.1) = columns := by
    rw [List.map_map]
    exact List.map_id _
  have hfields : (nulls columns).fields = empty.fields ++ columns.map fun name => (name, .null) :=
    fields_setAll_of_distinct (by rw [hmap]; exact h)
  rw [names, hfields]
  exact hmap

/-- A row read at the given names, in their order. -/
def restrict (row : Row) (names : List String) : Row :=
  ⟨names.map fun name => (name, row.getD name)⟩

/-- In a row with distinct names every field is read under its own name. -/
theorem getD_of_mem {row : Row} (h : DistinctNames row.names) {field : String × Value}
    (hmem : field ∈ row.fields) : row.getD field.1 = field.2 := by
  obtain ⟨fields⟩ := row
  have hfind : fields.find? (fun other => Text.sameName other.1 field.1) = some field := by
    unfold names at h
    dsimp only at h hmem
    induction fields with
    | nil => cases hmem
    | cons first rest ih =>
      have hpair := List.pairwise_cons.1 h
      rcases List.mem_cons.1 hmem with rfl | hrest
      · exact List.find?_cons_of_pos (Text.sameName_refl _)
      · have hne := hpair.1 field.1 (List.mem_map_of_mem hrest)
        rw [List.find?_cons_of_neg (by simp [hne])]
        exact ih hpair.2 hrest
  rw [getD, get?, hfind]
  rfl

/-- A row with distinct names that has all fields of another row gives that row back. -/
theorem restrict_eq_of_subset {row part : Row} (h : DistinctNames row.names)
    (subset : ∀ field ∈ part.fields, field ∈ row.fields) : row.restrict part.names = part := by
  rw [restrict, names, List.map_map]
  congr
  calc part.fields.map ((fun name => (name, row.getD name)) ∘ Prod.fst)
      = part.fields.map id := by
        apply List.map_congr_left
        intro field hmem
        have hread := getD_of_mem h (subset field hmem)
        simp only [Function.comp, hread, id]
    _ = part.fields := List.map_id _

end SqlEngine.Row
