import Mathlib.Data.List.Forall2
import SqlEngine.Proofs.Row.Names

/-!
# What is given last under a name

Of several things that are given under one name the last one counts. A row that fields are written
to has under each name what was given last under it, and its own cell where nothing was given.
-/
namespace SqlEngine.Row

/-- What is given last under a name, in whatever spelling. -/
def lastUnder? {α : Type} (name : String) (given : List (String × α)) : Option α :=
  (given.reverse.find? fun pair => Text.sameName pair.1 name).map (·.2)

variable {α β : Type}

section Related

variable {R : α → β → Prop} {a? : Option α} {b? : Option β}

theorem exists_of_related (h : Option.Rel R a? b?) {a : α} (ha : a? = some a) :
    ∃ b, b? = some b ∧ R a b := by
  cases h with
  | none => cases ha
  | some hab =>
    cases ha
    exact ⟨_, rfl, hab⟩

theorem eq_none_of_related (h : Option.Rel R a? b?) (ha : a? = none) : b? = none := by
  cases h with
  | none => rfl
  | some hab => cases ha

end Related

theorem lastUnder?_cons (name : String) (pair : String × α) (rest : List (String × α)) :
    lastUnder? name (pair :: rest) =
      (lastUnder? name rest).or (if Text.sameName pair.1 name then some pair.2 else none) := by
  rw [lastUnder?, lastUnder?, List.reverse_cons, List.find?_append, Option.map_or]
  by_cases h : Text.sameName pair.1 name <;> simp [h]

theorem mem_of_lastUnder? {name : String} {given : List (String × α)} {a : α}
    (h : lastUnder? name given = some a) :
    ∃ pair ∈ given, Text.sameName pair.1 name = true ∧ pair.2 = a := by
  obtain ⟨pair, hpair, rfl⟩ := Option.map_eq_some_iff.1 h
  have hname := List.find?_some hpair
  exact ⟨pair, List.mem_reverse.1 (List.mem_of_find?_eq_some hpair), hname, rfl⟩

theorem lastUnder?_eq_none {name : String} {given : List (String × α)} :
    lastUnder? name given = none ↔ ∀ pair ∈ given, Text.sameName pair.1 name = false := by
  simp [lastUnder?]

theorem get?_setAll (row : Row) (fields : List (String × Value)) (name : String) :
    (row.setAll fields).get? name = (lastUnder? name fields).or (row.get? name) := by
  induction fields generalizing row with
  | nil => rfl
  | cons field rest ih =>
    rw [setAll_cons, ih, get?_set, lastUnder?_cons, Option.or_assoc]
    by_cases h : Text.sameName field.1 name <;> simp [h]

/-- A cell that is written once holds what was written. -/
theorem getD_setAll_of_once {row : Row} {fields : List (String × Value)} {name : String} {j : Nat}
    {field : String × Value} (hfield : fields[j]? = some field)
    (hsame : Text.sameName field.1 name = true)
    (honce : ∀ k other, fields[k]? = some other → Text.sameName other.1 name = true → k = j) :
    (row.setAll fields).getD name = field.2 := by
  rw [getD, get?_setAll]
  cases hlast : lastUnder? name fields with
  | none =>
    have hother := lastUnder?_eq_none.1 hlast field (List.mem_of_getElem? hfield)
    rw [hsame] at hother
    cases hother
  | some v =>
    obtain ⟨other, hother, hname, rfl⟩ := mem_of_lastUnder? hlast
    obtain ⟨k, hk⟩ := List.getElem?_of_mem hother
    obtain rfl := honce k other hk hname
    obtain rfl : other = field := Option.some.inj (hk.symm.trans hfield)
    rfl

/-- What is given last under a name goes along with the names and with what is given. -/
theorem lastUnder?_related {R : α → β → Prop} {as : List (String × α)} {bs : List (String × β)}
    (h : List.Forall₂ (fun a b => Text.sameName a.1 b.1 = true ∧ R a.2 b.2) as bs)
    (name : String) : Option.Rel R (lastUnder? name as) (lastUnder? name bs) := by
  induction h with
  | nil => exact .none
  | @cons a b restA restB hfirst _ ih =>
    rw [lastUnder?_cons, lastUnder?_cons, Text.sameName_congr hfirst.1]
    generalize lastUnder? name restA = later, lastUnder? name restB = later' at ih ⊢
    cases ih with
    | some hlater => exact .some hlater
    | none =>
      by_cases hname : Text.sameName b.1 name = true
      · rw [if_pos hname, if_pos hname]
        exact .some hfirst.2
      · rw [if_neg hname, if_neg hname]
        exact .none

/-- Names that are the same are given the same. -/
theorem lastUnder?_zip_congr {names others : List String}
    (h : List.Forall₂ (fun own other => Text.sameName own other = true) names others)
    (given : List α) (name : String) :
    lastUnder? name (names.zip given) = lastUnder? name (others.zip given) := by
  have hzip : List.Forall₂ (fun a b => Text.sameName a.1 b.1 = true ∧ a.2 = b.2)
      (names.zip given) (others.zip given) := by
    induction h generalizing given with
    | nil => exact .nil
    | cons hfirst _ ih =>
      cases given with
      | nil => exact .nil
      | cons a rest => exact .cons ⟨hfirst, rfl⟩ (ih rest)
  cases hlast : lastUnder? name (names.zip given) with
  | none => exact (eq_none_of_related (lastUnder?_related hzip name) hlast).symm
  | some a =>
    obtain ⟨b, hb, rfl⟩ := exists_of_related (lastUnder?_related hzip name) hlast
    exact hb.symm

/-- A row of missing values is missing under its names, and has no other ones. -/
theorem get?_nulls (names : List String) (name : String) :
    (nulls names).get? name =
      if names.any (Text.sameName · name) then some .null else none := by
  have hlast : lastUnder? name (names.map fun own => (own, Value.null)) =
      if names.any (Text.sameName · name) then some .null else none := by
    induction names with
    | nil => rfl
    | cons own rest ih =>
      rw [List.map_cons, lastUnder?_cons, ih, List.any_cons]
      by_cases hown : Text.sameName own name
      · by_cases hrest : rest.any (Text.sameName · name) <;> simp [hown, hrest]
      · simp [hown]
  rw [nulls, ofFields, get?_setAll, hlast]
  exact Option.or_none

theorem getD_nulls (names : List String) (name : String) : (nulls names).getD name = .null := by
  rw [getD, get?_nulls]
  split <;> rfl

end SqlEngine.Row
