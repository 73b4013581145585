import SqlEngine.Proofs.Condition.Forms

/-!
# Missing values in conditions

A missing value that decides a form makes it false, and its negation too: nothing that is missing is
less, equal, greater, between, like or in a list. The one exception is NOT IN. A list with a missing
item might hold the value as far as anyone can tell, but NOT IN passes over missing items, so it
holds of a value that is there and equal to none of the others.
-/
namespace SqlEngine.Condition

/-- A missing value decides a form all of whose expressions have values: it is the subject, a bound,
the pattern or the other side, or an item of a list in which the subject has no equal. -/
inductive DecidedByMissing (scope : Scope) : Condition → Prop
  | between {x low high : Expr} {v l h : Value} (negated : Bool) (hx : x.eval scope = .ok v)
    (hlow : low.evalOperand scope = .ok l) (hhigh : high.evalOperand scope = .ok h)
    (missing : v = .null ∨ l = .null ∨ h = .null) :
    DecidedByMissing scope (between x low high negated)
  | oneOf {x : Expr} {items : List Expr} {v : Value} (negated : Bool) (hx : x.eval scope = .ok v)
    (hitems : ∀ item ∈ items, ∃ u, item.evalOperand scope = .ok u)
    (missing : v = .null ∨ ((∃ item ∈ items, item.evalOperand scope = .ok .null) ∧
      ∀ item ∈ items, ∀ u, item.evalOperand scope = .ok u → v.looselyEqual? u ≠ some true)) :
    DecidedByMissing scope (oneOf x items negated)
  | like {x y : Expr} {v w : Value} (negated : Bool) (hx : x.eval scope = .ok v)
    (hy : y.evalOperand scope = .ok w) (missing : v = .null ∨ w = .null) :
    DecidedByMissing scope (like x y negated)
  | compare {x y : Expr} {v w : Value} (op : Comparison) (hx : x.eval scope = .ok v)
    (hy : y.evalOperand scope = .ok w) (missing : v = .null ∨ w = .null) :
    DecidedByMissing scope (compare op x y)

/-- The form is NOT IN, of a value that is not missing. -/
def IsExclusion (scope : Scope) : Condition → Prop
  | oneOf x _ true => x.eval scope ≠ .ok .null
  | _ => False

variable {v w low high : Value}

theorem holds_missing (op : Comparison) (h : v = .null ∨ w = .null) : op.holds v w = false := by
  rcases h with rfl | rfl
  · cases op <;> rfl
  · unfold Comparison.holds
    rw [Value.looselyEqual?_null, Value.compare?_null]
    cases op <;> rfl

theorem likeHolds_missing (negated : Bool) (h : v = .null ∨ w = .null) :
    likeHolds negated v w = false := by
  unfold likeHolds
  rcases h with rfl | rfl
  · rfl
  · rw [if_pos]
    exact Bool.or_true _

theorem betweenHolds_missing (negated : Bool) (h : v = .null ∨ low = .null ∨ high = .null) :
    betweenHolds negated v low high = false := by
  unfold betweenHolds
  rcases h with rfl | rfl | rfl
  · rfl
  · rw [Value.compare?_null]
  · rw [Value.compare?_null]
    cases v.compare? low <;> rfl

section Lists

variable {scope : Scope} {x : Expr} {items : List Expr}

/-- A list in which nothing is equal to the value before it: IN does not hold, and NOT IN does if
the value is there. -/
theorem holds_oneOf_of_no_equal (hx : x.eval scope = .ok v)
    (hitems : ∀ item ∈ items, ∃ u, item.evalOperand scope = .ok u)
    (hnone : ∀ item ∈ items, ∀ u, item.evalOperand scope = .ok u →
      v.looselyEqual? u ≠ some true) (negated : Bool) :
    (oneOf x items negated).holds scope = .ok (!v.isNull && negated) := by
  obtain ⟨found, hholds, hiff⟩ := holds_oneOf hx hitems
  have hfound : found = false := by
    refine Bool.eq_false_iff.2 fun heq => ?_
    obtain ⟨item, hitem, u, hu, hequal⟩ := hiff.1 heq
    exact hnone item hitem u hu hequal
  rw [hholds, hfound, Bool.false_bne]

theorem isExclusion_iff (hx : x.eval scope = .ok v) (negated : Bool) :
    (oneOf x items negated).IsExclusion scope ↔ (!v.isNull && negated) = true := by
  cases negated with
  | false =>
    rw [Bool.and_false]
    exact ⟨nofun, nofun⟩
  | true =>
    rw [IsExclusion, hx]
    cases v <;> simp [Value.isNull]

end Lists

/-- A missing value that decides a form makes it false, negated or not, unless the form is NOT IN of
a value that is not missing: then the missing items are passed over, and it holds. -/
theorem missing_decides {scope : Scope} {c : Condition} (h : c.DecidedByMissing scope) :
    (¬ c.IsExclusion scope → c.holds scope = .ok false) ∧
      (c.IsExclusion scope → c.holds scope = .ok true) := by
  cases h with
  | between negated hx hlow hhigh missing =>
    refine ⟨fun _ => ?_, nofun⟩
    rw [holds_between hx hlow hhigh, betweenHolds_missing negated missing]
  | like negated hx hy missing =>
    refine ⟨fun _ => ?_, nofun⟩
    rw [holds_like hx hy, likeHolds_missing negated missing]
  | compare op hx hy missing =>
    refine ⟨fun _ => ?_, nofun⟩
    rw [holds_compare hx hy, holds_missing op missing]
  | @oneOf x items v negated hx hitems missing =>
    have hnone : ∀ item ∈ items, ∀ u, item.evalOperand scope = .ok u →
        v.looselyEqual? u ≠ some true := by
      rcases missing with rfl | ⟨-, hnone⟩
      · nofun
      · exact hnone
    rw [holds_oneOf_of_no_equal hx hitems hnone, isExclusion_iff hx]
    cases !v.isNull && negated with
    | false => exact ⟨fun _ => rfl, nofun⟩
    | true => exact ⟨fun hnot => absurd rfl hnot, fun _ => rfl⟩

/-- A sum with a text is missing, so it is not said to be outside of two bounds. -/
theorem missing_decides_sum :
    let scope : Scope := .row ⟨[("v", .text "ten")]⟩
    let sum : Expr := .binary .add (.column ⟨none, "v"⟩) (.literal (.number 1))
    let c := between sum (.literal (.number 1)) (.literal (.number 9)) true
    c.DecidedByMissing scope ∧ ¬ c.IsExclusion scope ∧ c.holds scope = .ok false := by
  intro scope sum c
  have hsum : sum.eval scope = .ok .null := by decide +kernel
  have hdecided : c.DecidedByMissing scope := .between true hsum rfl rfl (.inl rfl)
  have hform : ¬ c.IsExclusion scope := nofun
  exact ⟨hdecided, hform, (missing_decides hdecided).1 hform⟩

/-- The number 1 is found not to be among 2 and a missing item, although that item decides. -/
theorem exclusion_passes_over_missing :
    let scope : Scope := .row ⟨[("v", .number 1)]⟩
    let c := oneOf (.column ⟨none, "v"⟩) [.literal (.number 2), .literal .null] true
    c.DecidedByMissing scope ∧ c.holds scope = .ok true := by
  intro scope c
  have hx : (Expr.column ⟨none, "v"⟩).eval scope = .ok (.number 1) := by decide +kernel
  have hitems : ∀ item ∈ [Expr.literal (.number 2), .literal .null],
      ∃ u, item.evalOperand scope = .ok u := by
    simp [Expr.evalOperand, Expr.eval]
  have hdiffer : (Value.number 1).looselyEqual? (.number 2) ≠ some true := by decide +kernel
  have hholds : c.holds scope = .ok true := by decide +kernel
  refine ⟨.oneOf true hx hitems (.inr ⟨⟨.literal .null, ?_, rfl⟩, ?_⟩), hholds⟩
  · exact List.mem_cons_of_mem _ List.mem_cons_self
  · intro item hitem u hu
    rcases List.mem_cons.1 hitem with rfl | hitem
    · cases hu
      exact hdiffer
    · rw [List.mem_singleton.1 hitem] at hu
      cases hu
      intro h
      cases h

end SqlEngine.Condition
