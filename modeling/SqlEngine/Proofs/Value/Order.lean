import Mathlib.Data.String.Basic
import SqlEngine.Proofs.Number.Order

/-!
# The sorting order

Missing values come first, numbers go by their size, and texts by their small forms, where those of
equal small form go by their characters. Between values that are all numbers or all texts, missing
ones among them, this is what the sorting order finds, and it is the order of their ranks, so it is
transitive and leaves nothing incomparable. Nothing is said of numbers among texts or of
not-a-number.
-/
namespace SqlEngine.Value

/-- A value stands before another one. -/
inductive Before : Value → Value → Prop
  | missing {v : Value} (h : v.isNull = false) : Before .null v
  | number {x y : Float} (h : x < y) : Before (.number x) (.number y)
  | small {s t : String} (h : Text.lower s < Text.lower t) : Before (.text s) (.text t)
  | exact {s t : String} (heq : Text.lower s = Text.lower t) (h : s < t) :
    Before (.text s) (.text t)

/-- A number, unless the value is missing. -/
def isNumeric : Value → Bool
  | .null => true
  | .number x => !x.isNaN
  | .text _ => false

/-- A text, unless the value is missing. -/
def isTextual : Value → Bool
  | .null => true
  | .number _ => false
  | .text _ => true

/-- Two values are numbers or texts alike, where they are not missing. -/
def Alike (v w : Value) : Prop :=
  (v.isNumeric = true ∧ w.isNumeric = true) ∨ (v.isTextual = true ∧ w.isTextual = true)

section Ranks

/-- The kinds of values, one behind the other. -/
def kindRank : Value → Nat
  | .null => 0
  | .number _ => 1
  | .text _ => 2

def place : Value → Number.Place
  | .number x => Number.place x
  | _ => ⟨0, 0, 0⟩

def spelling : Value → String
  | .text s => s
  | _ => ""

/-- An order of all values that agrees with the sorting order between values that are alike. -/
def compareRanks : Value → Value → Ordering :=
  compareLex (compareOn kindRank) (compareLex (compareOn place)
    (compareLex (compareOn fun v => Text.lower v.spelling) (compareOn spelling)))

instance : Std.TransCmp compareRanks :=
  inferInstanceAs (Std.TransCmp (compareLex (compareOn kindRank) (compareLex (compareOn place)
    (compareLex (compareOn fun v => Text.lower v.spelling) (compareOn spelling)))))

/-- Ranks are compared part by part. -/
theorem compareRanks_eq (v w : Value) :
    compareRanks v w = (compare v.kindRank w.kindRank).then ((compare v.place w.place).then
      ((compare (Text.lower v.spelling) (Text.lower w.spelling)).then
        (compare v.spelling w.spelling))) := rfl

theorem compareRanks_number (x y : Float) :
    compareRanks (.number x) (.number y) = compare (Number.place x) (Number.place y) := by
  rw [compareRanks_eq]
  simp only [kindRank, place, spelling, Std.ReflOrd.compare_self, Ordering.then_eq,
    Ordering.eq_then]

theorem compareRanks_text (s t : String) :
    compareRanks (.text s) (.text t) = compareTexts s t := by
  rw [compareRanks_eq, compareTexts]
  simp only [kindRank, place, spelling, Std.ReflOrd.compare_self, Ordering.eq_then]

/-- Two numbers are sorted by their places. -/
theorem sortCompare_number {x y : Float} (hx : x.isNaN = false) (hy : y.isNaN = false) :
    (number x).sortCompare (number y) = compare (Number.place x) (Number.place y) := by
  rw [sortCompare, Number.compare?_eq_places hx hy]
  rfl

theorem compareTexts_eq_lt {s t : String} :
    compareTexts s t = .lt ↔
      Text.lower s < Text.lower t ∨ (Text.lower s = Text.lower t ∧ s < t) := by
  rw [compareTexts, Ordering.then_eq_lt, Std.LawfulEqCmp.compare_eq_iff_eq, compare_lt_iff_lt,
    compare_lt_iff_lt]

theorem compareTexts_eq_eq {s t : String} : compareTexts s t = .eq ↔ s = t := by
  rw [compareTexts, Ordering.then_eq_eq, Std.LawfulEqCmp.compare_eq_iff_eq,
    Std.LawfulEqCmp.compare_eq_iff_eq]
  exact ⟨And.right, fun h => ⟨congrArg Text.lower h, h⟩⟩

/-- What is alike and not missing is two numbers or two texts. -/
theorem Alike.cases {v w : Value} (h : Alike v w) :
    v = .null ∨ w = .null ∨
      (∃ x y, v = .number x ∧ w = .number y ∧ x.isNaN = false ∧ y.isNaN = false) ∨
      ∃ s t, v = .text s ∧ w = .text t := by
  cases v with
  | null => exact .inl rfl
  | number x =>
    cases w with
    | null => exact .inr (.inl rfl)
    | number y =>
      rcases h with ⟨hx, hy⟩ | ⟨hx, -⟩
      · refine .inr (.inr (.inl ⟨x, y, rfl, rfl, ?_, ?_⟩))
        · simpa [isNumeric] using hx
        · simpa [isNumeric] using hy
      · cases hx
    | text t =>
      rcases h with ⟨-, hy⟩ | ⟨hx, -⟩
      · cases hy
      · cases hx
  | text s =>
    cases w with
    | null => exact .inr (.inl rfl)
    | number y =>
      rcases h with ⟨hx, -⟩ | ⟨-, hy⟩
      · cases hx
      · cases hy
    | text t => exact .inr (.inr (.inr ⟨s, t, rfl, rfl⟩))

/-- Values that are alike are sorted by their ranks. -/
theorem sortCompare_eq_ranks {v w : Value} (h : Alike v w) :
    v.sortCompare w = compareRanks v w := by
  rcases h.cases with rfl | rfl | ⟨x, y, rfl, rfl, hx, hy⟩ | ⟨s, t, rfl, rfl⟩
  · cases w with
    | null => exact Std.ReflCmp.compare_self.symm
    | number y => rfl
    | text t => rfl
  · cases v with
    | null => exact Std.ReflCmp.compare_self.symm
    | number x => rfl
    | text s => rfl
  · rw [sortCompare_number hx hy, compareRanks_number]
  · exact (compareRanks_text s t).symm

end Ranks

variable {v w : Value}

/-- Between values that are alike the sorting order finds which one stands before the other. -/
theorem sortCompare_eq_lt (h : Alike v w) : v.sortCompare w = .lt ↔ v.Before w := by
  rcases h.cases with rfl | rfl | ⟨x, y, rfl, rfl, hx, hy⟩ | ⟨s, t, rfl, rfl⟩
  · cases w with
    | null => exact ⟨nofun, fun (.missing h) => nomatch h⟩
    | number y => exact ⟨fun _ => .missing rfl, fun _ => rfl⟩
    | text t => exact ⟨fun _ => .missing rfl, fun _ => rfl⟩
  · cases v with
    | null => exact ⟨nofun, fun (.missing h) => nomatch h⟩
    | number x => exact ⟨nofun, nofun⟩
    | text s => exact ⟨nofun, nofun⟩
  · rw [sortCompare_number hx hy, Number.compare_place_eq_lt hx hy]
    exact ⟨.number, fun (.number h) => h⟩
  · have htexts : (text s).sortCompare (text t) = compareTexts s t := rfl
    rw [htexts, compareTexts_eq_lt]
    constructor
    · rintro (h | ⟨heq, h⟩)
      · exact .small h
      · exact .exact heq h
    · rintro (_ | _ | h | ⟨heq, h⟩)
      · exact .inl h
      · exact .inr ⟨heq, h⟩

/-- Between values that are alike the sorting order leaves undecided only what is equal. -/
theorem sortCompare_eq_eq (h : Alike v w) : v.sortCompare w = .eq ↔ v.equals w = true := by
  rcases h.cases with rfl | rfl | ⟨x, y, rfl, rfl, hx, hy⟩ | ⟨s, t, rfl, rfl⟩
  · cases w with
    | null => exact ⟨fun _ => rfl, fun _ => rfl⟩
    | number y => exact ⟨nofun, nofun⟩
    | text t => exact ⟨nofun, nofun⟩
  · cases v with
    | null => exact ⟨fun _ => rfl, fun _ => rfl⟩
    | number x => exact ⟨nofun, nofun⟩
    | text s => exact ⟨nofun, nofun⟩
  · rw [sortCompare_number hx hy, Number.compare_place_eq_eq hx hy]
    rfl
  · have htexts : (text s).sortCompare (text t) = compareTexts s t := rfl
    rw [htexts, compareTexts_eq_eq]
    exact beq_iff_eq.symm

theorem Alike.symm (h : Alike v w) : Alike w v := h.imp And.symm And.symm

end SqlEngine.Value
