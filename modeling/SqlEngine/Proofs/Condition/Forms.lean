import SqlEngine.Condition.Eval
import SqlEngine.Proofs.Computation
import SqlEngine.Proofs.Value.Comparison

/-!
# The forms of conditions

A form whose expressions all have values is decided by these values alone. BETWEEN, IN and the six
comparisons each look at them in their own way; what they come to is nevertheless the same: bounds
are kept where the comparisons with them hold, a list is hit where one of its items is equal, and of
less, equal and greater one holds exactly where the two values can be compared. A missing value and
not-a-number can be compared with nothing.
-/
namespace SqlEngine

namespace Comparison

variable {v w : Value}

theorem holds_eq : eq.holds v w = true ↔ v.compare? w = some .eq := by
  rw [holds, beq_iff_eq, Value.looselyEqual?_eq_true]

theorem holds_lt : lt.holds v w = true ↔ v.compare? w = some .lt := beq_iff_eq

theorem holds_gt : gt.holds v w = true ↔ v.compare? w = some .gt := beq_iff_eq

theorem holds_le : le.holds v w = true ↔ lt.holds v w = true ∨ eq.holds v w = true := by
  rw [holds_lt, holds_eq, holds]
  rcases v.compare? w with _ | (_ | _ | _) <;> simp

theorem holds_ge : ge.holds v w = true ↔ gt.holds v w = true ∨ eq.holds v w = true := by
  rw [holds_gt, holds_eq, holds]
  rcases v.compare? w with _ | (_ | _ | _) <;> simp

/-- Less, equal or greater holds where two values can be compared. -/
theorem exists_holds_iff :
    lt.holds v w = true ∨ eq.holds v w = true ∨ gt.holds v w = true ↔
      (v.compare? w).isSome = true := by
  rw [holds_lt, holds_eq, holds_gt]
  rcases v.compare? w with _ | (_ | _ | _) <;> simp

/-- Of less, equal and greater no two hold. -/
theorem not_holds_both :
    ¬ (lt.holds v w = true ∧ eq.holds v w = true) ∧
      ¬ (lt.holds v w = true ∧ gt.holds v w = true) ∧
      ¬ (eq.holds v w = true ∧ gt.holds v w = true) := by
  rw [holds_lt, holds_eq, holds_gt]
  rcases v.compare? w with _ | (_ | _ | _) <;> simp

end Comparison

namespace Condition

section Bounds

variable {v low high : Value}

theorem betweenHolds_iff :
    betweenHolds false v low high = true ↔
      Comparison.ge.holds v low = true ∧ Comparison.le.holds v high = true := by
  unfold betweenHolds Comparison.holds
  cases v.compare? low with
  | none => simp
  | some atLow =>
    cases v.compare? high with
    | none => simp
    | some atHigh => simp

theorem betweenHolds_negated_iff :
    betweenHolds true v low high = true ↔
      (v.compare? low).isSome = true ∧ (v.compare? high).isSome = true ∧
        (Comparison.lt.holds v low = true ∨ Comparison.gt.holds v high = true) := by
  rw [Comparison.holds_lt, Comparison.holds_gt]
  unfold betweenHolds
  rcases v.compare? low with _ | (_ | _ | _)
  · simp
  all_goals rcases v.compare? high with _ | (_ | _ | _) <;> simp

end Bounds

section Values

variable {scope : Scope} {x y low high : Expr} {items : List Expr} {v w l h : Value}

theorem holds_compare (hx : x.eval scope = .ok v) (hy : y.evalOperand scope = .ok w)
    (op : Comparison) : (compare op x y).holds scope = .ok (op.holds v w) :=
  (bind_of_ok hx _).trans (bind_of_ok hy _)

theorem holds_like (hx : x.eval scope = .ok v) (hy : y.evalOperand scope = .ok w)
    (negated : Bool) : (like x y negated).holds scope = .ok (likeHolds negated v w) :=
  (bind_of_ok hx _).trans (bind_of_ok hy _)

theorem holds_between (hx : x.eval scope = .ok v) (hlow : low.evalOperand scope = .ok l)
    (hhigh : high.evalOperand scope = .ok h) (negated : Bool) :
    (between x low high negated).holds scope = .ok (betweenHolds negated v l h) :=
  (bind_of_ok hx _).trans ((bind_of_ok hlow _).trans (bind_of_ok hhigh _))

/-- Among items that all have values, one that is loosely equal to a value is found wherever it
stands. -/
theorem findItem_eq_ok (hitems : ∀ item ∈ items, ∃ u, item.evalOperand scope = .ok u) (v : Value) :
    ∃ found, findItem scope v items = .ok found ∧ (found = true ↔
      ∃ item ∈ items, ∃ u, item.evalOperand scope = .ok u ∧ v.looselyEqual? u = some true) := by
  induction items with
  | nil => exact ⟨false, rfl, nofun, nofun⟩
  | cons item rest ih =>
    obtain ⟨⟨u, hu⟩, hrest⟩ := List.forall_mem_cons.1 hitems
    obtain ⟨found, hfound, hiff⟩ := ih hrest
    have hstep : findItem scope v (item :: rest) =
        if v.looselyEqual? u == some true then .ok true else findItem scope v rest :=
      bind_of_ok hu _
    rw [hstep]
    by_cases hequal : v.looselyEqual? u = some true
    · refine ⟨true, if_pos (beq_iff_eq.2 hequal), fun _ => ?_, fun _ => rfl⟩
      exact ⟨item, List.mem_cons_self, u, hu, hequal⟩
    · refine ⟨found, (if_neg (mt beq_iff_eq.1 hequal)).trans hfound, hiff.trans ?_⟩
      rw [List.exists_mem_cons_iff, or_iff_right]
      rintro ⟨other, hother, hsame⟩
      rw [Except.ok.inj (hu.symm.trans hother)] at hequal
      exact hequal hsame

/-- A list decides by whether one of its items is loosely equal to the value before it; where that
value is missing, neither form holds. -/
theorem holds_oneOf (hx : x.eval scope = .ok v)
    (hitems : ∀ item ∈ items, ∃ u, item.evalOperand scope = .ok u) :
    ∃ found, (∀ negated, (oneOf x items negated).holds scope =
        .ok (!v.isNull && (found != negated))) ∧
      (found = true ↔
        ∃ item ∈ items, ∃ u, item.evalOperand scope = .ok u ∧ v.looselyEqual? u = some true) := by
  obtain ⟨found, hfound, hiff⟩ := findItem_eq_ok hitems v
  refine ⟨found, fun negated => ?_, hiff⟩
  refine (bind_of_ok hx _).trans ?_
  cases v with
  | null => rfl
  | number z => exact bind_of_ok hfound _
  | text s => exact bind_of_ok hfound _

/-- A value is in a list where it is equal to one of the items. -/
theorem holds_oneOf_iff (hx : x.eval scope = .ok v)
    (hitems : ∀ item ∈ items, ∃ u, item.evalOperand scope = .ok u) :
    (oneOf x items false).holds scope = .ok true ↔
      ∃ item ∈ items, (compare .eq x item).holds scope = .ok true := by
  obtain ⟨found, hholds, hiff⟩ := holds_oneOf hx hitems
  have hequal : ∀ item ∈ items, (compare .eq x item).holds scope = .ok true ↔
      ∃ u, item.evalOperand scope = .ok u ∧ v.looselyEqual? u = some true := by
    intro item hitem
    obtain ⟨u, hu⟩ := hitems item hitem
    rw [holds_compare hx hu, Except.ok.injEq, Comparison.holds, beq_iff_eq]
    constructor
    · exact fun h => ⟨u, hu, h⟩
    · rintro ⟨other, hother, h⟩
      rw [Except.ok.inj (hu.symm.trans hother)]
      exact h
  rw [hholds, Except.ok.injEq, Bool.bne_false, Bool.and_eq_true, hiff]
  constructor
  · rintro ⟨-, item, hitem, h⟩
    exact ⟨item, hitem, (hequal item hitem).2 h⟩
  · rintro ⟨item, hitem, h⟩
    obtain ⟨u, hu, hsame⟩ := (hequal item hitem).1 h
    refine ⟨?_, item, hitem, u, hu, hsame⟩
    cases v with
    | null => cases hsame
    | number z => rfl
    | text s => rfl

end Values

/-- Where an expression, an operand, two bounds and the items of a list have values in a scope, none
of the forms that are made of them fails, and they agree: a value is between two bounds where it is
at least the lower and at most the upper one, and not between them where it can be compared with
both and is less than the lower or greater than the upper one; it is in a list where it is equal to
an item; at most and at least are less or equal and greater or equal; and of less, equal and greater
no two hold, and one holds exactly where the values can be compared. Behind this stands, for all
values, that neither loose equality nor comparison depends on the side and that both find the same
values equal. -/
theorem forms_agree (scope : Scope) (x y low high : Expr) (items : List Expr) {v w l h : Value}
    (hx : x.eval scope = .ok v) (hy : y.evalOperand scope = .ok w)
    (hlow : low.evalOperand scope = .ok l) (hhigh : high.evalOperand scope = .ok h)
    (hitems : ∀ item ∈ items, ∃ u, item.evalOperand scope = .ok u) :
    let Holds (c : Condition) : Prop := c.holds scope = .ok true
    let Is (op : Comparison) (e : Expr) : Prop := Holds (.compare op x e)
    ((∀ negated, ∃ holds, (between x low high negated).holds scope = .ok holds) ∧
      (∀ negated, ∃ holds, (oneOf x items negated).holds scope = .ok holds) ∧
      ∀ op, ∃ holds, (compare op x y).holds scope = .ok holds) ∧
    (Holds (.between x low high false) ↔ Is .ge low ∧ Is .le high) ∧
    (Holds (.between x low high true) ↔
      (v.compare? l).isSome = true ∧ (v.compare? h).isSome = true ∧ (Is .lt low ∨ Is .gt high)) ∧
    (Holds (.oneOf x items false) ↔ ∃ item ∈ items, Is .eq item) ∧
    (Is .le y ↔ Is .lt y ∨ Is .eq y) ∧ (Is .ge y ↔ Is .gt y ∨ Is .eq y) ∧
    (¬ (Is .lt y ∧ Is .eq y) ∧ ¬ (Is .lt y ∧ Is .gt y) ∧ ¬ (Is .eq y ∧ Is .gt y)) ∧
    (Is .lt y ∨ Is .eq y ∨ Is .gt y ↔ (v.compare? w).isSome = true) ∧
    ∀ a b : Value, b.looselyEqual? a = a.looselyEqual? b ∧
      b.compare? a = (a.compare? b).map Ordering.swap ∧
      (a.looselyEqual? b = some true ↔ a.compare? b = some .eq) := by
  intro Holds Is
  have is_y : ∀ op, Is op y ↔ op.holds v w = true := fun op => by
    rw [← Except.ok.injEq, ← holds_compare hx hy]
  have is_low : ∀ op, Is op low ↔ op.holds v l = true := fun op => by
    rw [← Except.ok.injEq, ← holds_compare hx hlow]
  have is_high : ∀ op, Is op high ↔ op.holds v h = true := fun op => by
    rw [← Except.ok.injEq, ← holds_compare hx hhigh]
  have is_between : ∀ negated,
      Holds (.between x low high negated) ↔ betweenHolds negated v l h = true := fun negated => by
    rw [← Except.ok.injEq, ← holds_between hx hlow hhigh]
  obtain ⟨found, hfound, -⟩ := holds_oneOf hx hitems
  refine ⟨⟨?_, ?_, ?_⟩, ?_, ?_, holds_oneOf_iff hx hitems, ?_, ?_, ?_, ?_, ?_⟩
  · exact fun negated => ⟨_, holds_between hx hlow hhigh negated⟩
  · exact fun negated => ⟨_, hfound negated⟩
  · exact fun op => ⟨_, holds_compare hx hy op⟩
  · rw [is_between, is_low, is_high, betweenHolds_iff]
  · rw [is_between, is_low, is_high, betweenHolds_negated_iff]
  · rw [is_y, is_y, is_y, Comparison.holds_le]
  · rw [is_y, is_y, is_y, Comparison.holds_ge]
  · rw [is_y, is_y, is_y]
    exact Comparison.not_holds_both
  · rw [is_y, is_y, is_y, Comparison.exists_holds_iff]
  · exact fun a b => ⟨Value.looselyEqual?_comm a b, Value.compare?_swap a b,
      Value.looselyEqual?_eq_true⟩

/-- The number 5 between a text and a number, in a list behind a missing item, and beside a word
that it cannot be compared with. -/
theorem forms_agree_five :
    let scope : Scope := .row ⟨[("v", .number 5)]⟩
    let x : Expr := .column ⟨none, "v"⟩
    let y : Expr := .column ⟨none, "word"⟩
    let low : Expr := .literal (.text "1")
    let high : Expr := .literal (.number 9)
    let items : List Expr := [.literal .null, .literal (.text "5")]
    x.eval scope = .ok (.number 5) ∧ y.evalOperand scope = .ok (.text "word") ∧
      low.evalOperand scope = .ok (.text "1") ∧ high.evalOperand scope = .ok (.number 9) ∧
      (∀ item ∈ items, ∃ u, item.evalOperand scope = .ok u) ∧
      (between x low high false).holds scope = .ok true ∧
      (oneOf x items false).holds scope = .ok true ∧
      ¬ ((compare .lt x y).holds scope = .ok true ∨ (compare .eq x y).holds scope = .ok true ∨
        (compare .gt x y).holds scope = .ok true) := by
  intro scope x y low high items
  have hx : x.eval scope = .ok (.number 5) := by decide +kernel
  have hy : y.evalOperand scope = .ok (.text "word") := by decide +kernel
  have hlow : low.evalOperand scope = .ok (.text "1") := rfl
  have hhigh : high.evalOperand scope = .ok (.number 9) := rfl
  have hitems : ∀ item ∈ items, ∃ u, item.evalOperand scope = .ok u := by
    simp [items, Expr.evalOperand, Expr.eval]
  obtain ⟨-, hbetween, -, hlist, -, -, -, hcompared, -⟩ :=
    forms_agree scope x y low high items hx hy hlow hhigh hitems
  have hleast : (compare .ge x low).holds scope = .ok true := by decide +kernel
  have hmost : (compare .le x high).holds scope = .ok true := by decide +kernel
  have hequal : (compare .eq x (.literal (.text "5"))).holds scope = .ok true := by decide +kernel
  have hnone : (Value.number 5).compare? (.text "word") = none := by decide +kernel
  refine ⟨hx, hy, hlow, hhigh, hitems, hbetween.2 ⟨hleast, hmost⟩, ?_, ?_⟩
  · exact hlist.2 ⟨_, List.mem_cons_of_mem _ List.mem_cons_self, hequal⟩
  · rw [hcompared, hnone]
    exact Bool.false_ne_true
end Condition
end SqlEngine
