import Mathlib.Data.Finset.Card
import SqlEngine.Expr.Eval
import SqlEngine.Proofs.Grouping
import SqlEngine.Proofs.Number.Extremes

/-!
# Aggregates and the order of rows

COUNT, MIN and MAX see of the values of a group only which there are and how often, and counting
without repetitions only which keys there are. So the order of the rows makes no difference, except
that MIN and MAX may find either of the two zeros. SUM and AVG are not dealt with: the sum of
doubles does depend on their order.
-/
namespace SqlEngine

/-- Equal but for the sign of a zero. -/
def Value.EqualToSign (v w : Value) : Prop :=
  v = w ∨ (v = .number 0 ∧ w = .number (-0)) ∨ (v = .number (-0) ∧ w = .number 0)

namespace Aggregate

open Number

/-- The result is missing where no value is a number. Otherwise it is one of the numbers among the
values, and it comes before each of them but not-a-number. -/
structure IsExtreme (before : Float → Float → Prop) (values : List Value) (result : Value) :
    Prop where
  null_iff : result = .null ↔ ∀ v ∈ values, v.number? = none
  is_number : result ≠ .null → ∃ x, result = .number x ∧ (∃ v ∈ values, v.number? = some x) ∧
    ∀ v ∈ values, ∀ y, v.number? = some y → y.isNaN = false → before x y

section Extremes

variable {before : Float → Float → Prop} {pick : Float → Float → Float}

/-- What is picked of the numbers among some values comes before all of them. -/
theorem isExtreme_extreme (h : Ranks before) (hpick : Picks before pick) (values : List Value) :
    IsExtreme before values (extreme pick values) := by
  have hnumbers : ∀ x, x ∈ values.filterMap Value.number? ↔ ∃ v ∈ values, v.number? = some x :=
    fun _ => List.mem_filterMap
  rw [extreme]
  cases hcase : values.filterMap Value.number? with
  | nil =>
    have hnone : ∀ v ∈ values, v.number? = none := List.filterMap_eq_nil_iff.1 hcase
    exact ⟨iff_of_true rfl hnone, fun hne => absurd rfl hne⟩
  | cons first rest =>
    obtain ⟨hmem, hleads⟩ := hpick.foldl h first rest
    rw [← hcase] at hmem hleads
    obtain ⟨v, hv, hx⟩ := (hnumbers _).1 hmem
    refine ⟨iff_of_false Value.noConfusion fun hnone => ?_, fun _ => ⟨_, rfl, ⟨v, hv, hx⟩, ?_⟩⟩
    · cases (hnone v hv).symm.trans hx
    · exact fun w hw y hy => hleads y ((hnumbers y).2 ⟨w, hw, hy⟩)

theorem IsExtreme.of_perm {values values' : List Value} {result : Value}
    (h : IsExtreme before values result) (hperm : values.Perm values') :
    IsExtreme before values' result where
  null_iff := by simpa only [hperm.mem_iff] using h.null_iff
  is_number := by simpa only [hperm.mem_iff] using h.is_number

/-- There is one such result, but for the sign of a zero. -/
theorem IsExtreme.unique (h : Ranks before) {values : List Value} {v w : Value}
    (hv : IsExtreme before values v) (hw : IsExtreme before values w) : v.EqualToSign w := by
  by_cases hnull : v = .null
  · exact .inl (hnull.trans (hw.null_iff.2 (hv.null_iff.1 hnull)).symm)
  · have hnull' : w ≠ .null := fun hw' => hnull (hv.null_iff.2 (hw.null_iff.1 hw'))
    obtain ⟨x, rfl, ⟨a, ha, hx⟩, hleads⟩ := hv.is_number hnull
    obtain ⟨y, rfl, ⟨b, hb, hy⟩, hleads'⟩ := hw.is_number hnull'
    rcases h.eq_or_zeros (hleads b hb y hy) (hleads' a ha x hx) with rfl | hzeros
    · exact .inl rfl
    · refine .inr (hzeros.imp ?_ ?_)
      · rintro ⟨rfl, rfl⟩
        exact ⟨rfl, rfl⟩
      · rintro ⟨rfl, rfl⟩
        exact ⟨rfl, rfl⟩

end Extremes

theorem isNull_iff_groupKey (v : Value) : v.isNull = true ↔ v.groupKey = .null := by
  cases v with
  | null => exact iff_of_true rfl rfl
  | number x => exact iff_of_false Bool.false_ne_true GroupKey.noConfusion
  | text s => exact iff_of_false Bool.false_ne_true GroupKey.noConfusion

/-- Counted without repetitions are the keys other than that of missing values. -/
theorem count_distinctValues (values : List Value) :
    compute .count (distinctValues values) =
      .ofNat ((values.map Value.groupKey).toFinset.erase .null).card := by
  have hkept : (distinctValues values).filter (!·.isNull) =
      (distinctValues values).filter fun v => v.groupKey ≠ .null := by
    refine List.filter_congr fun v _ => ?_
    rw [Bool.eq_iff_iff, decide_eq_true_iff, Bool.not_eq_true', ← Bool.not_eq_true,
      isNull_iff_groupKey]
  have hkeys : (((distinctValues values).map Value.groupKey).filter (· ≠ .null)).toFinset =
      (values.map Value.groupKey).toFinset.erase .null := by
    ext key
    rw [List.mem_toFinset, List.mem_filter, decide_eq_true_iff, Finset.mem_erase,
      List.mem_toFinset, distinctValues, mem_map_firstsBy, and_comm]
  have hnodup : (((distinctValues values).map Value.groupKey).filter (· ≠ .null)).Nodup :=
    (nodup_map_firstsBy Value.groupKey values).filter _
  rw [compute, hkept, ← hkeys, List.toFinset_card_of_nodup hnodup, List.filter_map,
    List.length_map]
  rfl

/-- COUNT, MIN and MAX of some values, and COUNT of those that repeat no other, do not depend on the
order of the values. COUNT without repetitions is the number of different keys, MIN is the least of
the numbers among the values, and MAX the greatest. -/
theorem compute_perm {values values' : List Value} (h : values.Perm values') :
    compute .count values' = compute .count values ∧
      compute .count (distinctValues values') = compute .count (distinctValues values) ∧
      compute .count (distinctValues values) =
        .ofNat ((values.map Value.groupKey).toFinset.erase .null).card ∧
      (compute .min values').EqualToSign (compute .min values) ∧
      IsExtreme (fun x y => x ≤ y) values (compute .min values) ∧
      (compute .max values').EqualToSign (compute .max values) ∧
      IsExtreme (fun x y => y ≤ x) values (compute .max values) := by
  have hcount : (values'.filter (!·.isNull)).length = (values.filter (!·.isNull)).length :=
    (h.symm.filter _).length_eq
  have hkeys : (values'.map Value.groupKey).toFinset = (values.map Value.groupKey).toFinset :=
    List.toFinset_eq_of_perm _ _ (h.symm.map _)
  have hleast := isExtreme_extreme ranks_le picks_least
  have hgreatest := isExtreme_extreme ranks_le.turned picks_greatest
  refine ⟨congrArg Value.ofNat hcount, ?_, count_distinctValues values, ?_, hleast values, ?_,
    hgreatest values⟩
  · rw [count_distinctValues, count_distinctValues, hkeys]
  · exact ((hleast values').of_perm h.symm).unique ranks_le (hleast values)
  · exact ((hgreatest values').of_perm h.symm).unique ranks_le.turned (hgreatest values)

/-- Numeric text takes part in MIN and MAX, other text and missing values do not. -/
theorem compute_perm_mixed :
    let values := [.text "ten", .number 2, .null, .text "10", .number 2]
    values.Perm values.reverse ∧ compute .count values.reverse = compute .count values ∧
      compute .count (distinctValues values) = .ofNat 3 ∧ compute .min values = .number 2 ∧
      (compute .max values.reverse).EqualToSign (.number 10) := by
  intro values
  have hperm : values.Perm values.reverse := values.reverse_perm.symm
  have hmax : compute .max values = .number 10 := by decide +kernel
  obtain ⟨hcount, -, -, -, -, hsame, -⟩ := compute_perm hperm
  refine ⟨hperm, hcount, ?_, ?_, ?_⟩
  · decide +kernel
  · decide +kernel
  · rwa [hmax] at hsame

end Aggregate
end SqlEngine
