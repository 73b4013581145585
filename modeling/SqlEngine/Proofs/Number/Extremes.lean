import Mathlib.Tactic.SplitIfs
import SqlEngine.Aggregate
import SqlEngine.Proofs.Number.Bits
import SqlEngine.Proofs.Number.Order

/-!
# The least and the greatest of some doubles

Doubles other than not-a-number are in a total order but for the two zeros, which stand in one
place. The smaller of two doubles comes before both of them in this order, and so does the one that
is left of a list when its members are put together two by two; the greater one in the order turned
round. Not-a-number is left only where there is nothing else, so what is left depends on the order
of the list by the sign of a zero at most.
-/
namespace SqlEngine.Number

open Float.Model

theorem le_iff_compare? {x y : Float} : x ≤ y ↔ (compare? x y).any Ordering.isLE = true := by
  rw [compare?_eq]
  change decide (((x.toModel.unpack.compare y.toModel.unpack).any Ordering.isLE) = true) = true ↔ _
  rw [decide_eq_true_iff]

/-- Numbers are in the order of their places, and not-a-number is in no order. -/
theorem le_iff {x y : Float} :
    x ≤ y ↔ x.isNaN = false ∧ y.isNaN = false ∧ (compare (place x) (place y)).isLE = true := by
  rw [le_iff_compare?]
  by_cases h : x.isNaN = true ∨ y.isNaN = true
  · have hnone : compare? x y = none := (compare?_eq x y).trans (isNone_of_isNaN h)
    have hnot : ¬ (x.isNaN = false ∧ y.isNaN = false) := by
      rintro ⟨hx, hy⟩
      rcases h with h | h
      · exact Bool.false_ne_true (hx.symm.trans h)
      · exact Bool.false_ne_true (hy.symm.trans h)
    rw [hnone, ← and_assoc]
    exact iff_of_false Bool.false_ne_true fun hboth => hnot hboth.1
  · obtain ⟨hx, hy⟩ := not_or.1 h
    have hx := Bool.eq_false_iff.2 hx
    have hy := Bool.eq_false_iff.2 hy
    rw [compare?_eq_places hx hy]
    exact ⟨fun hle => ⟨hx, hy, hle⟩, fun hboth => hboth.2.2⟩

/-- Of two numbers the one is less where the other does not come before it. -/
theorem lt_iff_not_le {x y : Float} (hx : x.isNaN = false) (hy : y.isNaN = false) :
    x < y ↔ ¬ y ≤ x := by
  rw [← compare_place_eq_lt hx hy, le_iff]
  simp only [hx, hy, true_and, Bool.not_eq_true, Ordering.isLE_eq_false]
  exact Std.OrientedCmp.gt_iff_lt.symm

/-- There is one not-a-number. -/
theorem eq_of_isNaN {x y : Float} (hx : x.isNaN = true) (hy : y.isNaN = true) : x = y := by
  have hunpacked : ∀ {z : Float}, z.isNaN = true → z.toModel.unpack = .notANumber := by
    intro z hz
    change z.toModel.unpack.isNaN = true at hz
    cases hmodel : z.toModel.unpack with
    | notANumber => rfl
    | infinity | zero | finite =>
      rw [hmodel] at hz
      cases hz
  exact eq_of_unpack_eq ((hunpacked hx).trans (hunpacked hy).symm)

/-- Only the two zeros are compared as equal without being unpacked to the same. -/
theorem eq_or_zeros_of_compare {u v : UnpackedFloat} (h : u.compare v = some .eq) :
    u = v ∨ ∃ s t, u = .zero s ∧ v = .zero t := by
  rcases u with (_ | _) | _ | s | ⟨(_ | _), m, e, hm⟩
  all_goals rcases v with (_ | _) | _ | t | ⟨(_ | _), n, f, hn⟩
  all_goals try first | (cases h; done) | exact .inl rfl | exact .inr ⟨s, t, rfl, rfl⟩
  all_goals
    have hboth : (compare e f).then (compare m n) = .eq := by
      first
      | exact Option.some.inj h
      | exact Ordering.swap_eq_eq.1 (Option.some.inj h)
    obtain ⟨hexponent, hmantissa⟩ := Ordering.then_eq_eq.1 hboth
    obtain rfl := Int.compare_eq_eq.1 hexponent
    obtain rfl := Nat.compare_eq_eq.1 hmantissa
    exact .inl rfl

/-- Doubles that are equal are the same but for the sign of a zero. -/
theorem eq_or_zeros_of_beq {x y : Float} (h : (x == y) = true) :
    x = y ∨ (x = 0 ∧ y = -0) ∨ (x = -0 ∧ y = 0) := by
  have hzero : (0 : Float).toModel.unpack = .zero .positive := rfl
  have hnegative : (-0 : Float).toModel.unpack = .zero .negative := rfl
  rcases eq_or_zeros_of_compare (beq_iff.1 h) with heq | ⟨s, t, hx, hy⟩
  · exact .inl (eq_of_unpack_eq heq)
  · cases s with
    | positive =>
      cases t with
      | positive => exact .inl (eq_of_unpack_eq (hx.trans hy.symm))
      | negative =>
        exact .inr (.inl ⟨eq_of_unpack_eq (hx.trans hzero.symm),
          eq_of_unpack_eq (hy.trans hnegative.symm)⟩)
    | negative =>
      cases t with
      | positive =>
        exact .inr (.inr ⟨eq_of_unpack_eq (hx.trans hnegative.symm),
          eq_of_unpack_eq (hy.trans hzero.symm)⟩)
      | negative => exact .inl (eq_of_unpack_eq (hx.trans hy.symm))

/-- An order of all doubles but not-a-number, which is in no order. Those of one place in it are
equal. -/
structure Ranks (before : Float → Float → Prop) : Prop where
  numbers : ∀ {x y}, before x y → x.isNaN = false ∧ y.isNaN = false
  total : ∀ {x y}, x.isNaN = false → y.isNaN = false → before x y ∨ before y x
  trans : ∀ {x y z}, before x y → before y z → before x z
  antisymm : ∀ {x y}, before x y → before y x → (x == y) = true

theorem ranks_le : Ranks (· ≤ ·) where
  numbers h := ⟨(le_iff.1 h).1, (le_iff.1 h).2.1⟩
  total {x y} hx hy := by
    by_cases hle : x ≤ y
    · exact .inl hle
    · have hlt := (lt_iff_not_le hy hx).2 hle
      rw [← compare_place_eq_lt hy hx] at hlt
      exact .inr (le_iff.2 ⟨hy, hx, by rw [hlt]; rfl⟩)
  trans hxy hyz := by
    obtain ⟨hx, -, hxy⟩ := le_iff.1 hxy
    obtain ⟨-, hz, hyz⟩ := le_iff.1 hyz
    exact le_iff.2 ⟨hx, hz, Std.TransCmp.isLE_trans hxy hyz⟩
  antisymm hxy hyx := by
    obtain ⟨hx, hy, hxy⟩ := le_iff.1 hxy
    obtain ⟨-, -, hyx⟩ := le_iff.1 hyx
    exact (compare_place_eq_eq hx hy).1 (Std.OrientedCmp.isLE_antisymm hxy hyx)

/-- The order turned round. -/
theorem Ranks.turned {before : Float → Float → Prop} (h : Ranks before) :
    Ranks fun x y => before y x where
  numbers hyx := (h.numbers hyx).symm
  total hx hy := h.total hy hx
  trans hyx hzy := h.trans hzy hyx
  antisymm hyx hxy := h.antisymm hxy hyx

/-- The double comes before the other one, unless that is not-a-number. -/
def Leads (before : Float → Float → Prop) (x y : Float) : Prop := y.isNaN = false → before x y

section Order

variable {before : Float → Float → Prop} (h : Ranks before) {x y z : Float}
include h

theorem Ranks.leads_refl (x : Float) : Leads before x x := fun hx => (h.total hx hx).elim id id

theorem Ranks.leads_trans (hxy : Leads before x y) (hyz : Leads before y z) : Leads before x z :=
  fun hz => h.trans (hxy (h.numbers (hyz hz)).1) (hyz hz)

/-- Two doubles that lead each other are the same but for the sign of a zero. -/
theorem Ranks.eq_or_zeros (hxy : Leads before x y) (hyx : Leads before y x) :
    x = y ∨ (x = 0 ∧ y = -0) ∨ (x = -0 ∧ y = 0) := by
  by_cases hx : x.isNaN = true
  · by_cases hy : y.isNaN = true
    · exact .inl (eq_of_isNaN hx hy)
    · have hnumber := (h.numbers (hxy (Bool.eq_false_iff.2 hy))).1
      exact absurd hx (Bool.eq_false_iff.1 hnumber)
  · have hbefore := hyx (Bool.eq_false_iff.2 hx)
    have heq := h.antisymm (hxy (h.numbers hbefore).1) hbefore
    exact eq_or_zeros_of_beq heq

end Order

/-- One of two doubles is picked that leads both of them. -/
structure Picks (before : Float → Float → Prop) (pick : Float → Float → Float) : Prop where
  one : ∀ x y, pick x y = x ∨ pick x y = y
  left : ∀ x y, Leads before (pick x y) x
  right : ∀ x y, Leads before (pick x y) y

/-- What is picked of a list, two by two, is one of its members and leads all of them. -/
theorem Picks.foldl {before : Float → Float → Prop} {pick : Float → Float → Float}
    (hpick : Picks before pick) (h : Ranks before) (first : Float) (rest : List Float) :
    rest.foldl pick first ∈ first :: rest ∧
      ∀ x ∈ first :: rest, Leads before (rest.foldl pick first) x := by
  induction rest generalizing first with
  | nil => exact ⟨List.mem_singleton_self _, List.forall_mem_singleton.2 (h.leads_refl first)⟩
  | cons y rest ih =>
    obtain ⟨hmem, hleads⟩ := ih (pick first y)
    obtain ⟨hpicked, hrest⟩ := List.forall_mem_cons.1 hleads
    have hleft := h.leads_trans hpicked (hpick.left first y)
    have hright := h.leads_trans hpicked (hpick.right first y)
    refine ⟨?_, List.forall_mem_cons.2 ⟨hleft, List.forall_mem_cons.2 ⟨hright, hrest⟩⟩⟩
    rcases List.mem_cons.1 hmem with heq | hlater
    · rw [List.foldl_cons, heq]
      rcases hpick.one first y with hone | hone
      · simp [hone]
      · simp [hone]
    · exact List.mem_cons_of_mem _ (List.mem_cons_of_mem _ hlater)

/-- Numbers are preferred, and of two numbers the one that comes strictly before the other. -/
theorem picks_of_strict {before strict : Float → Float → Prop} [DecidableRel strict]
    (h : Ranks before)
    (hstrict : ∀ {x y}, x.isNaN = false → y.isNaN = false → (strict y x ↔ ¬ before x y))
    {pick : Float → Float → Float}
    (hpick : ∀ x y, pick x y =
      if x.isNaN then y else if y.isNaN then x else if strict y x then y else x) :
    Picks before pick where
  one x y := by
    rw [hpick]
    split_ifs
    · exact .inr rfl
    · exact .inl rfl
    · exact .inr rfl
    · exact .inl rfl
  left x y := by
    intro hx
    rw [hpick, if_neg (Bool.eq_false_iff.1 hx)]
    split_ifs with hy hlt
    · exact h.leads_refl x hx
    · have hy := Bool.eq_false_iff.2 hy
      exact (h.total hx hy).resolve_left ((hstrict hx hy).1 hlt)
    · exact h.leads_refl x hx
  right x y := by
    intro hy
    rw [hpick, if_neg (Bool.eq_false_iff.1 hy)]
    split_ifs with hx hlt
    · exact h.leads_refl y hy
    · exact h.leads_refl y hy
    · exact Classical.not_not.1 (mt (hstrict (Bool.eq_false_iff.2 hx) hy).2 hlt)

theorem picks_least : Picks (· ≤ ·) least :=
  picks_of_strict ranks_le (fun hx hy => lt_iff_not_le hy hx) fun _ _ => rfl

theorem picks_greatest : Picks (fun x y => y ≤ x) greatest :=
  picks_of_strict ranks_le.turned (fun hx hy => lt_iff_not_le hx hy) fun _ _ => rfl

end SqlEngine.Number
