import Mathlib.Data.List.Forall2

/-!
# Computations that may fail

When a sequence of computations succeeds, each of them has succeeded, and the results are related to
what they were computed from by their places.
-/
namespace SqlEngine

variable {ε α β : Type}

theorem bind_eq_ok {x : Except ε α} {f : α → Except ε β} {b : β} :
    x >>= f = .ok b ↔ ∃ a, x = .ok a ∧ f a = .ok b := by
  constructor
  · intro h
    cases x with
    | error e => cases h
    | ok a => exact ⟨a, rfl, h⟩
  · rintro ⟨a, rfl, h⟩
    exact h

/-- What has succeeded hands its result on. -/
theorem bind_of_ok {x : Except ε α} {a : α} (h : x = .ok a) (f : α → Except ε β) :
    x >>= f = f a := by
  rw [h]
  rfl

/-- What comes after a computation counts for the results that it can have. -/
theorem bind_congr_of_ok {x : Except ε α} {f g : α → Except ε β}
    (h : ∀ a, x = .ok a → f a = g a) : x >>= f = x >>= g := by
  cases x with
  | error e => rfl
  | ok a => exact h a rfl

/-- A computation has succeeded where something is known of its result. -/
theorem exists_ok_of_map {result : Except ε α} {f : α → β} {b : β}
    (h : result.toOption.map f = some b) : ∃ a, result = .ok a ∧ f a = b := by
  cases result with
  | error e => cases h
  | ok a => exact ⟨a, rfl, Option.some.inj h⟩

/-- The results of a list of computations are those of its members, one by one. -/
theorem mapM_eq_ok {f : α → Except ε β} {as : List α} {bs : List β} :
    as.mapM f = .ok bs ↔ List.Forall₂ (fun a b => f a = .ok b) as bs := by
  induction as generalizing bs with
  | nil =>
    constructor
    · intro h
      cases h
      exact .nil
    · intro h
      cases h
      rfl
  | cons a rest ih =>
    rw [List.mapM_cons, bind_eq_ok]
    constructor
    · rintro ⟨b, hb, h⟩
      obtain ⟨bs, hbs, h⟩ := bind_eq_ok.1 h
      cases h
      exact .cons hb (ih.1 hbs)
    · rintro (_ | ⟨hb, hbs⟩)
      exact ⟨_, hb, bind_eq_ok.2 ⟨_, ih.2 hbs, rfl⟩⟩

/-- A list of computations succeeds where each of its members does. -/
theorem exists_mapM_eq_ok {f : α → Except ε β} {as : List α} :
    (∃ bs, as.mapM f = .ok bs) ↔ ∀ a ∈ as, ∃ b, f a = .ok b := by
  induction as with
  | nil => exact ⟨fun _ => List.forall_mem_nil _, fun _ => ⟨[], rfl⟩⟩
  | cons a rest ih =>
    rw [List.forall_mem_cons, ← ih, List.mapM_cons]
    constructor
    · rintro ⟨bs, h⟩
      obtain ⟨b, hb, h⟩ := bind_eq_ok.1 h
      obtain ⟨behind, hbehind, -⟩ := bind_eq_ok.1 h
      exact ⟨⟨b, hb⟩, behind, hbehind⟩
    · rintro ⟨⟨b, hb⟩, behind, hbehind⟩
      exact ⟨b :: behind, bind_eq_ok.2 ⟨b, hb, bind_eq_ok.2 ⟨behind, hbehind, rfl⟩⟩⟩

/-- Computations that all succeed give their results in order. -/
theorem mapM_eq_map {f : α → Except ε β} {g : α → β} {as : List α}
    (h : ∀ a ∈ as, f a = .ok (g a)) : as.mapM f = .ok (as.map g) :=
  mapM_eq_ok.2 (List.forall₂_map_right_iff.2 (List.forall₂_same.2 h))

/-- Lists of computations that agree for each member give the same results. -/
theorem mapM_congr {f g : α → Except ε β} {as : List α} (h : ∀ a ∈ as, f a = g a) :
    as.mapM f = as.mapM g := by
  induction as with
  | nil => rfl
  | cons a rest ih =>
    obtain ⟨hfirst, hrest⟩ := List.forall_mem_cons.1 h
    rw [List.mapM_cons, List.mapM_cons, hfirst, ih hrest]

section Related

variable {R : α → β → Prop} {as : List α} {bs : List β}

/-- Of lists that are related by places, a member of one is related to the member of the other in
its place. -/
theorem exists_getElem?_of_forall₂ (h : List.Forall₂ R as bs) {j : Nat} {a : α}
    (ha : as[j]? = some a) : ∃ b, bs[j]? = some b ∧ R a b := by
  induction h generalizing j with
  | nil => cases ha
  | cons hfirst _ ih =>
    cases j with
    | zero =>
      cases ha
      exact ⟨_, rfl, hfirst⟩
    | succ j => exact ih ha

/-- Lists that are related to one list by places are related to each other by places. -/
theorem forall₂_comp {γ : Type} {cs : List γ} {S : β → γ → Prop} {T : α → γ → Prop}
    (h : ∀ a b c, R a b → S b c → T a c) (hab : List.Forall₂ R as bs)
    (hbc : List.Forall₂ S bs cs) : List.Forall₂ T as cs := by
  induction hab generalizing cs with
  | nil =>
    cases hbc
    exact .nil
  | cons hfirst _ ih =>
    cases hbc with
    | cons hnext hrest => exact .cons (h _ _ _ hfirst hnext) (ih hrest)

/-- What is made of each member and the related one is related to the member. -/
theorem forall₂_map_zip {γ : Type} {f : α → β → γ} {T : α → γ → Prop}
    (h : ∀ a b, R a b → T a (f a b)) (hab : List.Forall₂ R as bs) :
    List.Forall₂ T as ((as.zip bs).map fun pair => f pair.1 pair.2) := by
  induction hab with
  | nil => exact .nil
  | cons hfirst _ ih => exact .cons (h _ _ hfirst) ih

/-- What is made of each member, beside the related one. -/
theorem forall₂_zip_left {γ : Type} {f : α → γ} (hab : List.Forall₂ R as bs) :
    List.Forall₂ (fun a pair => f a = pair.1 ∧ R a pair.2) as ((as.map f).zip bs) := by
  induction hab with
  | nil => exact .nil
  | cons hfirst _ ih => exact .cons ⟨rfl, hfirst⟩ ih

theorem forall₂_zip_right {γ : Type} {f : α → γ} (hab : List.Forall₂ R as bs) :
    List.Forall₂ (fun a pair => R a pair.1 ∧ f a = pair.2) as (bs.zip (as.map f)) := by
  induction hab with
  | nil => exact .nil
  | cons hfirst _ ih => exact .cons ⟨hfirst, rfl⟩ ih

end Related

/-- Every result of a list of computations is the result of one of its members. -/
theorem exists_of_mem_mapM {f : α → Except ε β} {as : List α} {bs : List β}
    (h : as.mapM f = .ok bs) {b : β} (hb : b ∈ bs) : ∃ a ∈ as, f a = .ok b := by
  obtain ⟨j, hj⟩ := List.getElem?_of_mem hb
  obtain ⟨a, ha, hf⟩ := exists_getElem?_of_forall₂ (mapM_eq_ok.1 h).flip hj
  exact ⟨a, List.mem_of_getElem? ha, hf⟩

/-- The result of every member is among the results. -/
theorem mem_of_mapM {f : α → Except ε β} {as : List α} {bs : List β} (h : as.mapM f = .ok bs)
    {a : α} {b : β} (ha : a ∈ as) (hb : f a = .ok b) : b ∈ bs := by
  obtain ⟨j, hj⟩ := List.getElem?_of_mem ha
  obtain ⟨result, hresult, hstep⟩ := exists_getElem?_of_forall₂ (mapM_eq_ok.1 h) hj
  rw [Except.ok.inj (hb.symm.trans hstep)]
  exact List.mem_of_getElem? hresult

end SqlEngine
