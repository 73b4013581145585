import SqlEngine.Proofs.Value.Order

/-!
# Where the sorting order is an order

The sorting order turns round when its two values are exchanged, for all values. It is transitive as
well, except where two rules meet in three values: numbers go by their size among each other but by
their text beside a text, and not-a-number counts as equal to every number. Sorting needs an order,
so three such values leave the result of ORDER BY open.
-/
namespace SqlEngine.Value

/-- Three values among which the rules of the sorting order contradict each other: not-a-number
between two numbers, or two numbers beside a text that their texts put in another order than their
size. -/
inductive Clash : Value → Value → Value → Prop
  | notANumber {x y z : Float} (h : y.isNaN = true) : Clash (.number x) (.number y) (.number z)
  | textFirst {s : String} {x y : Float}
    (h : (number x).sortCompare (number y) ≠ compareTexts (number x).display (number y).display) :
    Clash (.text s) (.number x) (.number y)
  | textBetween {s : String} {x y : Float}
    (h : (number x).sortCompare (number y) ≠ compareTexts (number x).display (number y).display) :
    Clash (.number x) (.text s) (.number y)
  | textLast {s : String} {x y : Float}
    (h : (number x).sortCompare (number y) ≠ compareTexts (number x).display (number y).display) :
    Clash (.number x) (.number y) (.text s)

instance : Std.TransCmp compareTexts :=
  inferInstanceAs (Std.TransCmp (compareLex (compareOn Text.lower) compare))

theorem compareTexts_swap (s t : String) : compareTexts t s = (compareTexts s t).swap :=
  Std.OrientedCmp.eq_swap

section Numbers

variable {x y : Float}

/-- Not-a-number is put level with every number. -/
theorem sortCompare_of_isNaN (h : x.isNaN = true ∨ y.isNaN = true) :
    (number x).sortCompare (number y) = .eq := by
  have hnone : x.toModel.unpack.compare y.toModel.unpack = none := Number.isNone_of_isNaN h
  rw [sortCompare, Number.compare?_eq, hnone]
  rfl

theorem sortCompare_number_swap (x y : Float) :
    (number y).sortCompare (number x) = ((number x).sortCompare (number y)).swap := by
  by_cases h : x.isNaN = true ∨ y.isNaN = true
  · rw [sortCompare_of_isNaN h, sortCompare_of_isNaN h.symm]
    rfl
  · obtain ⟨hx, hy⟩ := not_or.1 h
    have hx := Bool.eq_false_iff.2 hx
    have hy := Bool.eq_false_iff.2 hy
    rw [sortCompare_number hx hy, sortCompare_number hy hx]
    exact Std.OrientedCmp.eq_swap

/-- Numbers are in order if the one between them is not not-a-number. -/
theorem sortCompare_number_trans {x y z : Float} (hy : y.isNaN = false)
    (hxy : ((number x).sortCompare (number y)).isLE = true)
    (hyz : ((number y).sortCompare (number z)).isLE = true) :
    ((number x).sortCompare (number z)).isLE = true := by
  by_cases h : x.isNaN = true ∨ z.isNaN = true
  · rw [sortCompare_of_isNaN h]
    rfl
  · obtain ⟨hx, hz⟩ := not_or.1 h
    have hx := Bool.eq_false_iff.2 hx
    have hz := Bool.eq_false_iff.2 hz
    rw [sortCompare_number hx hy] at hxy
    rw [sortCompare_number hy hz] at hyz
    rw [sortCompare_number hx hz]
    exact Std.TransCmp.isLE_trans hxy hyz

end Numbers

/-- The sorting order seen from the other side is the other way round. -/
theorem sortCompare_swap (v w : Value) : w.sortCompare v = (v.sortCompare w).swap := by
  cases v with
  | null => cases w <;> rfl
  | number x =>
    cases w with
    | null => rfl
    | number y => exact sortCompare_number_swap x y
    | text t => exact compareTexts_swap _ _
  | text s =>
    cases w with
    | null => rfl
    | number y => exact compareTexts_swap _ _
    | text t => exact compareTexts_swap _ _

section Transitivity

variable {a b c : Value}

theorem sortCompare_number_text (x : Float) (s : String) :
    (number x).sortCompare (text s) = compareTexts (number x).display (text s).display := rfl

theorem sortCompare_text_number (s : String) (x : Float) :
    (text s).sortCompare (number x) = compareTexts (text s).display (number x).display := rfl

theorem sortCompare_text_text (s t : String) :
    (text s).sortCompare (text t) = compareTexts (text s).display (text t).display := rfl

/-- Values that are sorted by their texts are in order. -/
theorem sortCompare_trans_of_texts (hab : a.sortCompare b = compareTexts a.display b.display)
    (hbc : b.sortCompare c = compareTexts b.display c.display)
    (hac : a.sortCompare c = compareTexts a.display c.display)
    (h : (a.sortCompare b).isLE = true) (h' : (b.sortCompare c).isLE = true) :
    (a.sortCompare c).isLE = true := by
  rw [hab] at h
  rw [hbc] at h'
  rw [hac]
  exact Std.TransCmp.isLE_trans h h'

/-- Values that do not clash are in order. -/
theorem sortCompare_trans (hclash : ¬ Clash a b c) (hab : (a.sortCompare b).isLE = true)
    (hbc : (b.sortCompare c).isLE = true) : (a.sortCompare c).isLE = true := by
  cases a with
  | null => cases c <;> rfl
  | number x =>
    cases b with
    | null => cases hab
    | number y =>
      cases c with
      | null => cases hbc
      | number z =>
        exact sortCompare_number_trans (Bool.eq_false_iff.2 (mt .notANumber hclash)) hab hbc
      | text t =>
        have htexts := Decidable.not_not.1 (mt .textLast hclash)
        exact sortCompare_trans_of_texts htexts (sortCompare_number_text y t)
          (sortCompare_number_text x t) hab hbc
    | text s =>
      cases c with
      | null => cases hbc
      | number z =>
        have htexts := Decidable.not_not.1 (mt .textBetween hclash)
        exact sortCompare_trans_of_texts (sortCompare_number_text x s) (sortCompare_text_number s z)
          htexts hab hbc
      | text t =>
        exact sortCompare_trans_of_texts (sortCompare_number_text x s) (sortCompare_text_text s t)
          (sortCompare_number_text x t) hab hbc
  | text r =>
    cases b with
    | null => cases hab
    | number y =>
      cases c with
      | null => cases hbc
      | number z =>
        have htexts := Decidable.not_not.1 (mt .textFirst hclash)
        exact sortCompare_trans_of_texts (sortCompare_text_number r y) htexts
          (sortCompare_text_number r z) hab hbc
      | text t =>
        exact sortCompare_trans_of_texts (sortCompare_text_number r y) (sortCompare_number_text y t)
          (sortCompare_text_text r t) hab hbc
    | text s =>
      cases c with
      | null => cases hbc
      | number z =>
        exact sortCompare_trans_of_texts (sortCompare_text_text r s) (sortCompare_text_number s z)
          (sortCompare_text_number r z) hab hbc
      | text t =>
        exact sortCompare_trans_of_texts (sortCompare_text_text r s) (sortCompare_text_text s t)
          (sortCompare_text_text r t) hab hbc

end Transitivity

/-- The sorting order turns round with its values, and it orders all values that do not clash. -/
theorem sortCompare_orders (a b c : Value) (hclash : ¬ Clash a b c) :
    (∀ v w : Value, w.sortCompare v = (v.sortCompare w).swap) ∧
      (a.sortCompare b ≠ .gt → b.sortCompare c ≠ .gt → a.sortCompare c ≠ .gt) := by
  refine ⟨sortCompare_swap, fun hab hbc => Ordering.isLE_iff_ne_gt.1 ?_⟩
  exact sortCompare_trans hclash (Ordering.isLE_iff_ne_gt.2 hab) (Ordering.isLE_iff_ne_gt.2 hbc)

/-- Two numbers beside a text that finds them in the order of their size. -/
theorem sortCompare_orders_mixed :
    ¬ Clash (number 5) (text "7") (number 9) ∧
      (number 5).sortCompare (text "7") = .lt ∧ (text "7").sortCompare (number 9) = .lt ∧
      (number 5).sortCompare (number 9) ≠ .gt := by
  have hclash : ¬ Clash (number 5) (text "7") (number 9) := by
    rintro (_ | _ | h | _)
    exact h (by decide +kernel)
  have hfirst : (number 5).sortCompare (text "7") = .lt := by decide +kernel
  have hsecond : (text "7").sortCompare (number 9) = .lt := by decide +kernel
  refine ⟨hclash, hfirst, hsecond, ?_⟩
  exact (sortCompare_orders (number 5) (text "7") (number 9) hclash).2
    (by rw [hfirst]; nofun) (by rw [hsecond]; nofun)

/-- Among 9, 10 and the text 5, and among 2, not-a-number and 1, the sorting order goes round. -/
theorem sortCompare_goes_round :
    ((number 9).sortCompare (number 10) = .lt ∧ (number 10).sortCompare (text "5") = .lt ∧
      (number 9).sortCompare (text "5") = .gt) ∧
    (number 2).sortCompare (number (0 / 0)) = .eq ∧ (number (0 / 0)).sortCompare (number 1) = .eq ∧
      (number 2).sortCompare (number 1) = .gt := by
  decide +kernel

end SqlEngine.Value
