import SqlEngine.Value.Order

/-!
# The order of doubles

Doubles other than not-a-number stand in one row: negative infinity, the negative numbers, the two
zeros as one, the positive numbers, positive infinity. Finite numbers of one sign stand by their
exponents and then by their mantissas. Comparing two doubles is comparing their places in this row.
Not-a-number is compared with nothing, so comparison turns round with its sides for all doubles.
-/
namespace SqlEngine.Number

open Float.Model

/-- A place in this row: a class and, among finite numbers of one sign, an exponent and a
mantissa, both negative for negative numbers. -/
structure Place where
  kind : Int
  exponent : Int
  mantissa : Int

instance : Ord Place where
  compare p q := (compare p.kind q.kind).then
    ((compare p.exponent q.exponent).then (compare p.mantissa q.mantissa))

instance : Std.TransOrd Place :=
  inferInstanceAs (Std.TransCmp (compareLex (compareOn Place.kind)
    (compareLex (compareOn Place.exponent) (compareOn Place.mantissa))))

/-- Where a double stands. Not-a-number is put behind all others. -/
def placeOf : UnpackedFloat → Place
  | .infinity .negative => ⟨-2, 0, 0⟩
  | .finite .negative mantissa exponent _ => ⟨-1, -exponent, -mantissa⟩
  | .zero _ => ⟨0, 0, 0⟩
  | .finite .positive mantissa exponent _ => ⟨1, exponent, mantissa⟩
  | .infinity .positive => ⟨2, 0, 0⟩
  | .notANumber => ⟨3, 0, 0⟩

def place (x : Float) : Place := placeOf x.toModel.unpack

theorem compare_neg (a b : Int) : compare (-a) (-b) = (compare a b).swap := by
  rw [Int.compare_swap]
  rcases h : compare b a with _ | _ | _
  · exact Int.compare_eq_lt.2 (Int.neg_lt_neg (Int.compare_eq_lt.1 h))
  · exact Int.compare_eq_eq.2 (congrArg Neg.neg (Int.compare_eq_eq.1 h).symm)
  · exact Int.compare_eq_gt.2 (Int.neg_lt_neg (Int.compare_eq_gt.1 h))

theorem compare_natCast (m n : Nat) : compare (m : Int) (n : Int) = compare m n := by
  rcases h : compare m n with _ | _ | _
  · exact Int.compare_eq_lt.2 (Int.ofNat_lt.2 (Nat.compare_eq_lt.1 h))
  · exact Int.compare_eq_eq.2 (congrArg Nat.cast (Nat.compare_eq_eq.1 h))
  · exact Int.compare_eq_gt.2 (Int.ofNat_lt.2 (Nat.compare_eq_gt.1 h))

/-- Two doubles are compared as their places are, unless one of them is not-a-number. -/
theorem compare_eq_places {u v : UnpackedFloat} (hu : u.isNaN = false) (hv : v.isNaN = false) :
    u.compare v = some (compare (placeOf u) (placeOf v)) := by
  -- Different classes are told apart by the first part of their places.
  rcases u with (_ | _) | _ | (_ | _) | ⟨(_ | _), m, e, hm⟩
  all_goals rcases v with (_ | _) | _ | (_ | _) | ⟨(_ | _), n, f, hn⟩
  all_goals try first | rfl | (cases hu; done) | (cases hv; done)
  · have hplaces :
        compare (placeOf (.finite .negative m e hm)) (placeOf (.finite .negative n f hn)) =
          (compare (-e) (-f)).then (compare (-m : Int) (-n)) := rfl
    rw [hplaces, compare_neg, compare_neg, compare_natCast, ← Ordering.swap_then]
    rfl
  · have hplaces :
        compare (placeOf (.finite .positive m e hm)) (placeOf (.finite .positive n f hn)) =
          (compare e f).then (compare (m : Int) n) := rfl
    rw [hplaces, compare_natCast]
    rfl

theorem lt_iff {x y : Float} : x < y ↔ x.toModel.unpack.compare y.toModel.unpack = some .lt := by
  change decide ((x.toModel.unpack.compare y.toModel.unpack == some .lt) = true) = true ↔ _
  rw [decide_eq_true_iff, beq_iff_eq]

theorem beq_iff {x y : Float} :
    (x == y) = true ↔ x.toModel.unpack.compare y.toModel.unpack = some .eq := by
  change (x.toModel.unpack.compare y.toModel.unpack == some .eq) = true ↔ _
  rw [beq_iff_eq]

theorem isNone_of_isNaN {u v : UnpackedFloat} (h : u.isNaN = true ∨ v.isNaN = true) :
    u.compare v = none := by
  rcases h with h | h
  · cases u with
    | notANumber => rfl
    | _ => cases h
  · cases v with
    | notANumber => cases u <;> rfl
    | _ => cases h

theorem compare_swap (u v : UnpackedFloat) : v.compare u = (u.compare v).map Ordering.swap := by
  by_cases h : u.isNaN = true ∨ v.isNaN = true
  · rw [isNone_of_isNaN h, isNone_of_isNaN h.symm]
    rfl
  · obtain ⟨hu, hv⟩ := not_or.1 h
    have hu := Bool.eq_false_iff.2 hu
    have hv := Bool.eq_false_iff.2 hv
    rw [compare_eq_places hu hv, compare_eq_places hv hu, Option.map_some,
      ← Std.OrientedCmp.eq_swap]

theorem beq_comm (x y : Float) : (x == y) = (y == x) := by
  rw [Bool.eq_iff_iff, beq_iff, beq_iff, compare_swap]
  rcases y.toModel.unpack.compare x.toModel.unpack with _ | (_ | _ | _) <;> simp

/-- The three tests of a comparison find the order of the two doubles. -/
theorem compare?_eq (x y : Float) :
    compare? x y = x.toModel.unpack.compare y.toModel.unpack := by
  have hyx := compare_swap x.toModel.unpack y.toModel.unpack
  simp only [compare?, lt_iff, beq_iff, hyx]
  rcases x.toModel.unpack.compare y.toModel.unpack with _ | (_ | _ | _) <;> rfl

theorem compare?_swap (x y : Float) : compare? y x = (compare? x y).map Ordering.swap := by
  rw [compare?_eq, compare?_eq, compare_swap]

theorem compare?_eq_eq {x y : Float} : compare? x y = some .eq ↔ (x == y) = true := by
  rw [compare?_eq, beq_iff]

/-- Numbers are compared by their places. -/
theorem compare?_eq_places {x y : Float} (hx : x.isNaN = false) (hy : y.isNaN = false) :
    compare? x y = some (compare (place x) (place y)) := by
  rw [compare?_eq]
  exact compare_eq_places hx hy

section Numbers

variable {x y : Float} (hx : x.isNaN = false) (hy : y.isNaN = false)
include hx hy

theorem compare_place_eq_lt : compare (place x) (place y) = .lt ↔ x < y := by
  rw [lt_iff, compare_eq_places hx hy, Option.some.injEq]
  rfl

theorem compare_place_eq_eq : compare (place x) (place y) = .eq ↔ (x == y) = true := by
  rw [beq_iff, compare_eq_places hx hy, Option.some.injEq]
  rfl

end Numbers

end SqlEngine.Number
