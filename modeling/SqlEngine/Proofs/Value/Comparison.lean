import SqlEngine.Proofs.Number.Order

/-!
# Loose equality and comparison

Equality and order of values are two functions, each with its own way of bringing numbers and texts
together. They agree all the same: neither depends on the side on which a value stands, and two
values are loosely equal exactly where comparison finds them equal. This holds of missing values,
of not-a-number and of texts that are no numbers as well, where comparison finds nothing.
-/
namespace SqlEngine.Value

/-- Loose equality does not depend on the side on which a value stands. -/
theorem looselyEqual?_comm (v w : Value) : w.looselyEqual? v = v.looselyEqual? w := by
  cases v with
  | null => cases w <;> rfl
  | number x =>
    cases w with
    | null | text t => rfl
    | number y => exact congrArg some (Number.beq_comm y x)
  | text s =>
    cases w with
    | null | number y => rfl
    | text t => exact congrArg some BEq.comm

theorem bind_compare?_swap (x? y? : Option Float) :
    (y?.bind fun y => x?.bind (Number.compare? y)) =
      (x?.bind fun x => y?.bind (Number.compare? x)).map Ordering.swap := by
  cases x? with
  | none => cases y? <;> rfl
  | some x =>
    cases y? with
    | none => rfl
    | some y => exact Number.compare?_swap x y

/-- Comparison turns round when its sides are exchanged. -/
theorem compare?_swap (v w : Value) : w.compare? v = (v.compare? w).map Ordering.swap := by
  cases v with
  | null => cases w <;> rfl
  | number x =>
    cases w with
    | null => rfl
    | number y => exact Number.compare?_swap x y
    | text t => exact bind_compare?_swap (some x) (Number.parse? t)
  | text s =>
    cases w with
    | null => rfl
    | number y => exact bind_compare?_swap (Number.parse? s) (some y)
    | text t => exact congrArg some Std.OrientedCmp.eq_swap

theorem map_swap_eq_eq {order? : Option Ordering} :
    order?.map Ordering.swap = some .eq ↔ order? = some .eq := by
  rcases order? with _ | (_ | _ | _) <;> simp

/-- A number is loosely equal to a text where comparison finds the two equal. -/
theorem looselyEqual?_number_text (x : Float) (s : String) :
    (number x).looselyEqual? (text s) = some true ↔ (number x).compare? (text s) = some .eq := by
  change some ((Number.parse? s).any (· == x)) = some true ↔
    (Number.parse? s).bind (Number.compare? x) = some .eq
  cases Number.parse? s with
  | none => exact ⟨nofun, nofun⟩
  | some y =>
    rw [Option.any_some, Option.bind_some, Number.compare?_eq_eq, Number.beq_comm,
      Option.some_inj]

/-- Two values are loosely equal where comparison finds them equal. -/
theorem looselyEqual?_eq_true {v w : Value} :
    v.looselyEqual? w = some true ↔ v.compare? w = some .eq := by
  cases v with
  | null => exact ⟨nofun, nofun⟩
  | number x =>
    cases w with
    | null => exact ⟨nofun, nofun⟩
    | number y => exact Option.some_inj.trans Number.compare?_eq_eq.symm
    | text t => exact looselyEqual?_number_text x t
  | text s =>
    cases w with
    | null => exact ⟨nofun, nofun⟩
    | number y =>
      rw [looselyEqual?_comm, compare?_swap, map_swap_eq_eq]
      exact looselyEqual?_number_text y s
    | text t =>
      change some (s == t) = some true ↔ some (compare s t) = some .eq
      rw [Option.some_inj, Option.some_inj, beq_iff_eq, Std.LawfulEqCmp.compare_eq_iff_eq]

/-- A missing value is loosely equal to nothing. -/
theorem looselyEqual?_null (v : Value) : v.looselyEqual? .null = none := by
  cases v <;> rfl

theorem compare?_null (v : Value) : v.compare? .null = none := by
  cases v <;> rfl

end SqlEngine.Value
