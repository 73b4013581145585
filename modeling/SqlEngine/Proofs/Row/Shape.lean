import SqlEngine.Proofs.Row.Names

/-!
# What writing to a row does to its names and cells

Writing fields to a row, or filling it up, adds the names that are not there yet and leaves the
other ones alone. Only names decide which names a row gets; the cells have no say in it. A row that
is written to from nothing has the first of every group of names that are the same, and if it is
written from another row, the cells of that row under them.
-/
namespace SqlEngine.Row

/-- The names that no earlier one is the same as. -/
def firstNames : List String → List String
  | [] => []
  | name :: rest => name :: (firstNames rest).filter fun other => !Text.sameName name other

/-- The names with one more behind them, unless it is there. -/
def addName (names : List String) (name : String) : List String :=
  if names.any (Text.sameName · name) then names else names ++ [name]

/-- The names with those of a second list behind them that are not there. -/
def addNames (names more : List String) : List String := more.foldl addName names

theorem addNames_append (names more others : List String) :
    addNames names (more ++ others) = addNames (addNames names more) others :=
  List.foldl_append

theorem names_set_eq_addName (row : Row) (name : String) (value : Value) :
    (row.set name value).names = addName row.names name := by
  rw [names_set, contains_eq_any]
  rfl

theorem names_setAll (row : Row) (fields : List (String × Value)) :
    (row.setAll fields).names = addNames row.names (fields.map (·.1)) := by
  induction fields generalizing row with
  | nil => rfl
  | cons field rest ih =>
    have hset := names_set_eq_addName row field.1 field.2
    rw [setAll_cons, ih, hset]
    rfl

theorem names_merge (row other : Row) : (row.merge other).names = addNames row.names other.names :=
  names_setAll row other.fields

theorem names_fillOne (row : Row) (name : String) :
    (row.fillOne name).names = addName row.names name := by
  have hcontains := contains_eq_any row name
  rw [fillOne, addName, ← hcontains]
  by_cases h : row.contains name
  · simp [h]
  · simp [h, names]

theorem names_fillMissing (row : Row) (names : List String) :
    (row.fillMissing names).names = addNames row.names names := by
  induction names generalizing row with
  | nil => rfl
  | cons name rest ih =>
    have hfirst := names_fillOne row name
    have hrest := ih (row.fillOne name)
    rw [hfirst] at hrest
    exact hrest

/-- A list of names is extended by the first of the new ones that are the same. -/
theorem addNames_eq_append (names more : List String) :
    addNames names more =
      names ++ (firstNames more).filter fun name => !names.any (Text.sameName · name) := by
  induction more generalizing names with
  | nil => exact (List.append_nil names).symm
  | cons name rest ih =>
    have hstep : addNames names (name :: rest) = addNames (addName names name) rest := rfl
    rw [hstep, ih, firstNames]
    by_cases h : names.any (Text.sameName · name)
    · -- A name that is the same as the new one is the same as one that is there.
      have hcovered : ∀ other, Text.sameName name other = true →
          names.any (Text.sameName · other) = true := by
        intro other hsame
        obtain ⟨known, hknown, hname⟩ := List.any_eq_true.1 h
        exact List.any_eq_true.2 ⟨known, hknown, Text.sameName_trans hname hsame⟩
      have hfilter : ∀ others : List String,
          (others.filter fun other => !Text.sameName name other).filter
            (fun other => !names.any (Text.sameName · other)) =
          others.filter fun other => !names.any (Text.sameName · other) := by
        intro others
        rw [List.filter_filter]
        apply List.filter_congr
        intro other _
        cases hsame : Text.sameName name other with
        | false => simp
        | true => simp only [hcovered other hsame, Bool.not_true, Bool.false_and]
      rw [addName, if_pos h, List.filter_cons_of_neg (by simp only [h]; decide), hfilter]
    · have hnew : addName names name = names ++ [name] := if_neg h
      rw [hnew, List.filter_cons_of_pos (by simpa using h), List.filter_filter,
        List.append_assoc, List.singleton_append]
      congr 2
      apply List.filter_congr
      intro other _
      simp [List.any_append]

theorem addNames_nil (names : List String) : addNames [] names = firstNames names := by
  rw [addNames_eq_append]
  simp

theorem addName_distinct {names : List String} (h : DistinctNames names) (name : String) :
    DistinctNames (addName names name) := by
  rw [addName]
  split
  · exact h
  · next hnew =>
    refine List.pairwise_append.2 ⟨h, List.pairwise_singleton _ _, ?_⟩
    intro known hknown other hother
    have hnone := List.any_eq_false.1 (Bool.eq_false_iff.2 hnew) known hknown
    rw [List.mem_singleton.1 hother]
    exact Bool.eq_false_iff.2 hnone

theorem addNames_distinct {names : List String} (h : DistinctNames names) (more : List String) :
    DistinctNames (addNames names more) := by
  induction more generalizing names with
  | nil => exact h
  | cons name rest ih => exact ih (addName_distinct h name)

theorem firstNames_distinct (names : List String) : DistinctNames (firstNames names) := by
  rw [← addNames_nil]
  exact addNames_distinct List.Pairwise.nil names

/-- Names that are distinct are all kept. -/
theorem firstNames_of_distinct {names : List String} (h : DistinctNames names) :
    firstNames names = names := by
  induction names with
  | nil => rfl
  | cons name rest ih =>
    have hpair := List.pairwise_cons.1 h
    rw [firstNames, ih hpair.2, List.filter_eq_self.2]
    intro other hother
    rw [hpair.1 other hother]
    rfl

/-- Under its own names, in their order, a row with distinct names is read as it stands. -/
theorem map_getD_names {row : Row} (h : DistinctNames row.names) :
    row.names.map row.getD = row.values := by
  rw [names, values, List.map_map]
  apply List.map_congr_left
  intro field hfield
  exact getD_of_mem h hfield

theorem firstNames_subset (names : List String) : firstNames names ⊆ names := by
  induction names with
  | nil => exact List.Subset.refl _
  | cons name rest ih =>
    refine List.cons_subset_cons name ?_
    exact fun other hother => ih (List.mem_filter.1 hother).1

/-- Every name is the same as one that is kept. -/
theorem exists_mem_firstNames {name : String} {names : List String} (h : name ∈ names) :
    ∃ first ∈ firstNames names, Text.sameName first name = true := by
  induction names with
  | nil => cases h
  | cons known rest ih =>
    by_cases hsame : Text.sameName known name = true
    · exact ⟨known, List.mem_cons_self, hsame⟩
    · have hrest : name ∈ rest :=
        (List.mem_cons.1 h).resolve_left fun heq => hsame (heq ▸ Text.sameName_refl name)
      obtain ⟨first, hfirst, hname⟩ := ih hrest
      refine ⟨first, List.mem_cons_of_mem known (List.mem_filter.2 ⟨hfirst, ?_⟩), hname⟩
      have hnot : Text.sameName known first ≠ true := fun hknown =>
        hsame (Text.sameName_trans hknown hname)
      simpa using hnot

/-- A cell is the one of the other row where that row was read into this one. -/
theorem getD_setAll_restrict (row source : Row) (names : List String) (name : String) :
    (row.setAll (source.restrict names).fields).getD name =
      if names.any (Text.sameName · name) then source.getD name else row.getD name := by
  induction names generalizing row with
  | nil => rfl
  | cons first rest ih =>
    have hstep : row.setAll (source.restrict (first :: rest)).fields =
        (row.set first (source.getD first)).setAll (source.restrict rest).fields := rfl
    rw [hstep, ih, getD_set, List.any_cons]
    by_cases hsame : Text.sameName first name = true
    · have hcell : source.getD first = source.getD name :=
        congrArg (·.getD Value.null) (source.get?_congr hsame)
      simp [hsame, hcell]
    · simp [hsame]

/-- Written from nothing, the cells of a row under some names are those under the first of the names
that are the same. -/
theorem values_ofFields_restrict (source : Row) (names : List String) :
    (ofFields (source.restrict names).fields).values = (firstNames names).map source.getD := by
  have hnames : (ofFields (source.restrict names).fields).names = firstNames names := by
    have hfields : (source.restrict names).fields.map (·.1) = names := by
      rw [restrict, List.map_map]
      exact List.map_id names
    rw [ofFields, names_setAll, hfields]
    exact addNames_nil names
  have hdistinct : DistinctNames (ofFields (source.restrict names).fields).names := by
    rw [hnames]
    exact firstNames_distinct names
  rw [← map_getD_names hdistinct, hnames]
  refine List.map_congr_left fun name hname => ?_
  have hread := getD_setAll_restrict empty source names name
  have hthere : names.any (Text.sameName · name) = true :=
    List.any_eq_true.2 ⟨name, firstNames_subset names hname, Text.sameName_refl name⟩
  rw [if_pos hthere] at hread
  exact hread

theorem isSome_get? (row : Row) (name : String) : (row.get? name).isSome = row.contains name := by
  simp only [get?, contains, Option.isSome_map, List.isSome_find?]

theorem get?_fillOne (row : Row) (first name : String) :
    (row.fillOne first).get? name =
      (row.get? name).or (if Text.sameName first name then some .null else none) := by
  rw [fillOne]
  split
  · next hthere =>
    by_cases hsame : Text.sameName first name
    · have hsome : (row.get? name).isSome = true := by
        obtain ⟨field, hfield, hname⟩ := List.any_eq_true.1 hthere
        rw [isSome_get?]
        exact List.any_eq_true.2 ⟨field, hfield, Text.sameName_trans hname hsame⟩
      exact (Option.or_of_isSome hsome).symm
    · simp [hsame]
  · simp only [get?, List.find?_append, Option.map_or]
    by_cases hsame : Text.sameName first name
    · simp [hsame]
    · simp [hsame]

/-- A row that is filled up keeps its cells and is missing under the names that it did not have. -/
theorem get?_fillMissing (row : Row) (names : List String) (name : String) :
    (row.fillMissing names).get? name =
      (row.get? name).or (if names.any (Text.sameName · name) then some .null else none) := by
  induction names generalizing row with
  | nil => simp [fillMissing]
  | cons first rest ih =>
    have hrest := ih (row.fillOne first)
    rw [get?_fillOne, Option.or_assoc] at hrest
    refine hrest.trans ?_
    by_cases hsame : Text.sameName first name
    · simp [hsame]
    · simp [hsame]

/-- Of fields with distinct names no other one goes by the name of the first. -/
theorem sameName_eq_false_of_first {field : String × Value} {rest : List (String × Value)}
    {name : String} (h : DistinctNames ((field :: rest).map (·.1)))
    (hfirst : Text.sameName field.1 name = true) :
    ∀ later ∈ rest, Text.sameName later.1 name = false := by
  intro later hlater
  have hdiffer := (List.pairwise_cons.1 h).1 later.1 (List.mem_map_of_mem hlater)
  rw [Bool.eq_false_iff]
  intro hname
  rw [Text.sameName_comm] at hname
  rw [Text.sameName_trans hfirst hname] at hdiffer
  cases hdiffer

/-- A row with distinct names that is written into another one hides the cells of the other. -/
theorem get?_merge {other : Row} (h : DistinctNames other.names) (row : Row) (name : String) :
    (row.merge other).get? name = (other.get? name).or (row.get? name) := by
  obtain ⟨fields⟩ := other
  simp only [names] at h
  simp only [merge]
  induction fields generalizing row with
  | nil => rfl
  | cons field rest ih =>
    have hcons : (⟨field :: rest⟩ : Row).get? name =
        if Text.sameName field.1 name then some field.2 else (⟨rest⟩ : Row).get? name := by
      by_cases hsame : Text.sameName field.1 name <;> simp [get?, hsame]
    have hrest := (List.pairwise_cons.1 h).2
    rw [setAll_cons, ih (row.set field.1 field.2) hrest, get?_set, hcons]
    by_cases hsame : Text.sameName field.1 name
    · have hnone : (⟨rest⟩ : Row).get? name = none := by
        rw [← Option.not_isSome_iff_eq_none, isSome_get?]
        intro hrest
        obtain ⟨later, hlater, hname⟩ := List.any_eq_true.1 hrest
        exact Bool.eq_false_iff.1 (sameName_eq_false_of_first h hsame later hlater) hname
      simp [hsame, hnone]
    · simp [hsame]

end SqlEngine.Row
