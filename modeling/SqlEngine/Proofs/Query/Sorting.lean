import SqlEngine.Proofs.Query.Stages
import SqlEngine.Proofs.Value.Order

/-!
# Sorting of result rows

Where the values of each ORDER BY item are numbers or texts throughout, missing ones aside, the
comparison of sort keys orders all rows: item by item, a later item where the ones before it find
equal values, backwards for a descending item. The result rows are then sorted by it, and rows with
equal keys stay in the order in which they were made.
-/
namespace SqlEngine

namespace Value

variable {v w : Value}

/-- The sorting order is the same seen from the other side. -/
theorem sortCompare_eq_gt (h : Alike v w) : v.sortCompare w = .gt ↔ w.Before v := by
  rw [sortCompare_eq_ranks h, Std.OrientedCmp.gt_iff_lt, ← sortCompare_eq_ranks h.symm,
    sortCompare_eq_lt h.symm]

end Value

namespace Query

/-- The keys of a row stand before those of another one: some item finds so, where the items in
front of it find equal values. A descending item is read backwards. -/
def KeysBefore : List OrderItem → List Value → List Value → Prop
  | item :: items, x :: xs, y :: ys =>
    (if item.ascending then x.Before y else y.Before x) ∨
      (x.equals y = true ∧ KeysBefore items xs ys)
  | _, _, _ => False

/-- The keys of two rows are equal, item by item. -/
def KeysTie (xs ys : List Value) : Prop := List.Forall₂ (fun x y => x.equals y = true) xs ys

/-- The rows are put in order, and those with equal keys stay as they were. -/
structure StableSort (orderBy : List OrderItem) (rows sorted : List Projected) : Prop where
  perm : sorted.Perm rows
  ordered : sorted.Pairwise fun p q => KeysBefore orderBy p.keys q.keys ∨ KeysTie p.keys q.keys
  ties_kept : ∀ tied : List Projected, tied.Sublist rows →
    tied.Pairwise (fun p q => KeysTie p.keys q.keys) → tied.Sublist sorted

/-- For each item the rows have numbers throughout, or texts throughout, missing values aside. -/
def Sortable (orderBy : List OrderItem) (rows : List Projected) : Prop :=
  ∀ i < orderBy.length, (∀ p ∈ rows, (p.keys.getD i .null).isNumeric = true) ∨
    (∀ p ∈ rows, (p.keys.getD i .null).isTextual = true)

section Keys

/-- The order of two lists of keys by their ranks, which takes keys that are not there for missing
values. -/
def compareRanked : List OrderItem → List Value → List Value → Ordering
  | [], _, _ => .eq
  | item :: items, xs, ys =>
    let ordering := Value.compareRanks (xs.headD .null) (ys.headD .null)
    (if item.ascending then ordering else ordering.swap).then
      (compareRanked items xs.tail ys.tail)

/-- A total preorder of some things orders all that has such a thing. -/
theorem transCmp_on {α β : Type} {cmp : β → β → Ordering} (h : Std.TransCmp cmp) (f : α → β) :
    Std.TransCmp fun a b => cmp (f a) (f b) where
  eq_swap := Std.OrientedCmp.eq_swap
  isLE_trans := Std.TransCmp.isLE_trans

theorem transCmp_swap {α : Type} {cmp : α → α → Ordering} (h : Std.TransCmp cmp) :
    Std.TransCmp fun a b => (cmp a b).swap := by
  have hflip : (fun a b => (cmp a b).swap) = fun a b => cmp b a :=
    funext₂ fun a b => Std.OrientedCmp.eq_swap.symm
  rw [hflip]
  infer_instance

theorem transCmp_ranked (orderBy : List OrderItem) : Std.TransCmp (compareRanked orderBy) := by
  induction orderBy with
  | nil => exact { eq_swap := rfl, isLE_trans := fun _ _ => rfl }
  | cons item items ih =>
    have hvalues : Std.TransCmp Value.compareRanks := inferInstance
    have hranks := transCmp_on hvalues fun xs : List Value => xs.headD .null
    have hfirst : Std.TransCmp fun xs ys : List Value =>
        if item.ascending then Value.compareRanks (xs.headD .null) (ys.headD .null)
        else (Value.compareRanks (xs.headD .null) (ys.headD .null)).swap := by
      cases item.ascending with
      | true => exact hranks
      | false => exact transCmp_swap hranks
    have hrest := transCmp_on ih (@List.tail Value)
    exact inferInstanceAs (Std.TransCmp (compareLex _ _))

variable {items : List OrderItem} {xs ys : List Value}

theorem compareKeys_eq_ranked (hlength : xs.length = items.length)
    (halike : List.Forall₂ Value.Alike xs ys) :
    compareKeys items xs ys = compareRanked items xs ys := by
  induction halike generalizing items with
  | nil =>
    obtain rfl := List.eq_nil_of_length_eq_zero hlength.symm
    rfl
  | @cons x y xs ys hfirst _ ih =>
    cases items with
    | nil => cases hlength
    | cons item items =>
      rw [compareKeys, compareRanked, ih (Nat.succ.inj hlength), Value.sortCompare_eq_ranks hfirst]
      rfl

/-- One item finds one value before another one in its own direction. -/
theorem directed_eq_lt (item : OrderItem) {x y : Value} (h : Value.Alike x y) :
    (if item.ascending then x.sortCompare y else (x.sortCompare y).swap) = .lt ↔
      if item.ascending then x.Before y else y.Before x := by
  cases item.ascending with
  | true => exact Value.sortCompare_eq_lt h
  | false => exact Ordering.swap_eq_lt.trans (Value.sortCompare_eq_gt h)

theorem directed_eq_eq (item : OrderItem) {x y : Value} (h : Value.Alike x y) :
    (if item.ascending then x.sortCompare y else (x.sortCompare y).swap) = .eq ↔
      x.equals y = true := by
  cases item.ascending with
  | true => exact Value.sortCompare_eq_eq h
  | false => exact Ordering.swap_eq_eq.trans (Value.sortCompare_eq_eq h)

/-- Keys that are not found to stand behind others stand before them or are equal to them. -/
theorem before_or_tie (hlength : xs.length = items.length)
    (halike : List.Forall₂ Value.Alike xs ys) (h : compareKeys items xs ys ≠ .gt) :
    KeysBefore items xs ys ∨ KeysTie xs ys := by
  induction halike generalizing items with
  | nil => exact .inr .nil
  | @cons x y xs ys hfirst _ ih =>
    cases items with
    | nil => cases hlength
    | cons item items =>
      rw [compareKeys] at h
      cases horder : (if item.ascending then x.sortCompare y else (x.sortCompare y).swap) with
      | lt => exact .inl (.inl ((directed_eq_lt item hfirst).1 horder))
      | eq =>
        rw [horder] at h
        have hequal := (directed_eq_eq item hfirst).1 horder
        exact (ih (Nat.succ.inj hlength) h).imp (fun hrest => .inr ⟨hequal, hrest⟩) (.cons hequal)
      | gt =>
        rw [horder] at h
        exact absurd rfl h

/-- Keys that are equal item by item have no order. -/
theorem compareKeys_of_tie (htie : KeysTie xs ys) (halike : List.Forall₂ Value.Alike xs ys) :
    compareKeys items xs ys = .eq := by
  induction htie generalizing items with
  | nil => cases items <;> rfl
  | @cons x y xs ys hfirst _ ih =>
    obtain _ | ⟨hxy, hrest⟩ := halike
    cases items with
    | nil => rfl
    | cons item items =>
      rw [compareKeys, ih hrest, (directed_eq_eq item hxy).2 hfirst]
      rfl

end Keys

section Rows

variable {orderBy : List OrderItem} {rows : List Projected}
  (hlength : ∀ p ∈ rows, p.keys.length = orderBy.length)
include hlength

/-- Of sortable rows the keys of any two are alike. -/
theorem alike_of_sortable (h : Sortable orderBy rows) {p q : Projected} (hp : p ∈ rows)
    (hq : q ∈ rows) : List.Forall₂ Value.Alike p.keys q.keys := by
  refine List.forall₂_iff_get.2 ⟨(hlength p hp).trans (hlength q hq).symm, fun i hi hj => ?_⟩
  have hkeys := h i (hlength p hp ▸ hi)
  have hpi : p.keys.getD i .null = p.keys.get ⟨i, hi⟩ := by simp [hi]
  have hqi : q.keys.getD i .null = q.keys.get ⟨i, hj⟩ := by simp [hj]
  rw [← hpi, ← hqi]
  exact hkeys.imp (fun hall => ⟨hall p hp, hall q hq⟩) fun hall => ⟨hall p hp, hall q hq⟩

/-- Sortable rows are sorted by the ranks of their keys. -/
theorem sortRows_eq_ranked (h : Sortable orderBy rows) :
    sortRows orderBy rows =
      rows.mergeSort fun p q => (compareRanked orderBy p.keys q.keys).isLE := by
  cases orderBy with
  | nil => exact (List.mergeSort_of_pairwise (List.pairwise_of_forall fun _ _ => rfl)).symm
  | cons item items =>
    have hcompare : ∀ p ∈ rows, ∀ q ∈ rows,
        (compareKeys (item :: items) p.keys q.keys != .gt) =
          (compareRanked (item :: items) p.keys q.keys).isLE := by
      intro p hp q hq
      rw [compareKeys_eq_ranked (hlength p hp) (alike_of_sortable hlength h hp hq)]
      cases compareRanked (item :: items) p.keys q.keys <;> rfl
    have hsorted := List.map_mergeSort (f := id)
      (s := fun p q : Projected => (compareRanked (item :: items) p.keys q.keys).isLE) hcompare
    rw [List.map_id, List.map_id] at hsorted
    exact hsorted

/-- Sortable rows are sorted. -/
theorem stableSort_sortRows (h : Sortable orderBy rows) :
    StableSort orderBy rows (sortRows orderBy rows) := by
  have horder := transCmp_on (transCmp_ranked orderBy) Projected.keys
  have htrans : ∀ p q r : Projected, (compareRanked orderBy p.keys q.keys).isLE = true →
      (compareRanked orderBy q.keys r.keys).isLE = true →
      (compareRanked orderBy p.keys r.keys).isLE = true :=
    fun _ _ _ => horder.isLE_trans
  have htotal : ∀ p q : Projected, ((compareRanked orderBy p.keys q.keys).isLE ||
      (compareRanked orderBy q.keys p.keys).isLE) = true := by
    intro p q
    have hswap : compareRanked orderBy p.keys q.keys =
        (compareRanked orderBy q.keys p.keys).swap := horder.eq_swap
    rw [hswap]
    cases compareRanked orderBy q.keys p.keys <;> rfl
  rw [sortRows_eq_ranked hlength h]
  refine ⟨List.mergeSort_perm rows _, ?_, fun tied hrows htied => ?_⟩
  · refine (List.pairwise_mergeSort htrans htotal rows).imp_of_mem fun {p q} hp hq hle => ?_
    have hp := List.mem_mergeSort.1 hp
    have halike := alike_of_sortable hlength h hp (List.mem_mergeSort.1 hq)
    rw [← compareKeys_eq_ranked (hlength p hp) halike] at hle
    refine before_or_tie (hlength p hp) halike fun hgt => ?_
    rw [hgt] at hle
    cases hle
  · refine List.sublist_mergeSort htrans htotal (htied.imp_of_mem fun {p q} hp hq htie => ?_) hrows
    have hp := hrows.subset hp
    have halike := alike_of_sortable hlength h hp (hrows.subset hq)
    rw [← compareKeys_eq_ranked (hlength p hp) halike, compareKeys_of_tie htie halike]
    rfl

end Rows

end Query
end SqlEngine
