import Mathlib.Data.List.Forall2
import SqlEngine.Grid

/-!
# Separators in the lines of a grid

Every line of a grid consists of segments with a separator in front of each and one behind the last.
Where the separators stand depends on the lengths of the segments alone, so lines with segments of
the same lengths are aligned, whatever is written in them.
-/
namespace SqlEngine.Grid

/-- Segments with a mark in front of each, the first mark being another one, and one behind them. -/
def enclosed (first crossing last : Char) : List (List Char) → List Char
  | [] => [last]
  | segment :: rest => first :: segment ++ enclosed crossing crossing last rest

/-- The places of the marks around segments of the given lengths. -/
def places : List Nat → List Nat
  | [] => [0]
  | n :: ns => 0 :: (places ns).map (n + 1 + ·)

/-- The segments that some texts are; a line without texts has one empty segment. -/
def segments (texts : List String) : List (List Char) :=
  if texts.isEmpty then [[]] else texts.map String.toList

theorem segments_of_ne_nil {texts : List String} (h : texts ≠ []) :
    segments texts = texts.map String.toList :=
  if_neg (by simpa using h)

theorem mem_segments {texts : List String} {segment : List Char} (h : segment ∈ segments texts) :
    segment = [] ∨ ∃ text ∈ texts, text.toList = segment := by
  rw [segments] at h
  split at h
  · exact .inl (List.mem_singleton.1 h)
  · exact .inr (List.mem_map.1 h)

theorem toList_enclosed {left crossing right : String} {first between last : Char}
    (hfirst : left.toList = [first]) (hbetween : crossing.toList = [between])
    (hlast : right.toList = [last]) (texts : List String) :
    (left ++ crossing.intercalate texts ++ right).toList =
      enclosed first between last (segments texts) := by
  rw [String.toList_append, String.toList_append, String.toList_intercalate, hfirst, hbetween,
    hlast]
  cases texts with
  | nil => rfl
  | cons text rest =>
    rw [segments_of_ne_nil (List.cons_ne_nil text rest), List.map_cons, enclosed,
      List.singleton_append, List.cons_append, List.cons_append]
    refine congrArg _ ?_
    induction rest generalizing text with
    | nil => rw [List.map_nil, List.intercalate_singleton, enclosed]
    | cons next rest ih =>
      rw [List.map_cons, List.intercalate_cons_cons, List.append_assoc, ih, enclosed,
        List.append_assoc]
      rfl

/-- The length of a line whose segments have the given lengths. -/
def lineLength : List Nat → Nat
  | [] => 1
  | length :: rest => length + 1 + lineLength rest

/-- Lines of the same segment lengths are equally long. -/
theorem length_enclosed (first crossing last : Char) (segs : List (List Char)) :
    (enclosed first crossing last segs).length = lineLength (segs.map List.length) := by
  induction segs generalizing first with
  | nil => rfl
  | cons segment rest ih =>
    rw [enclosed, List.length_append, ih, List.length_cons, List.map_cons, lineLength]

theorem mem_enclosed {c first crossing last : Char} {segs : List (List Char)}
    (h : c ∈ enclosed first crossing last segs) :
    c = first ∨ c = crossing ∨ c = last ∨ ∃ segment ∈ segs, c ∈ segment := by
  induction segs generalizing first with
  | nil => exact .inr (.inr (.inl (List.mem_singleton.1 h)))
  | cons segment rest ih =>
    rw [enclosed, List.mem_append, List.mem_cons] at h
    rcases h with (hfirst | hsegment) | hrest
    · exact .inl hfirst
    · exact .inr (.inr (.inr ⟨segment, List.mem_cons_self, hsegment⟩))
    · rcases ih hrest with hmark | hmark | hmark | ⟨other, hother, hc⟩
      · exact .inr (.inl hmark)
      · exact .inr (.inl hmark)
      · exact .inr (.inr (.inl hmark))
      · exact .inr (.inr (.inr ⟨other, List.mem_cons_of_mem segment hother, hc⟩))

/-- The marks are the characters other than the stroke, if the segments are strokes. -/
theorem mem_places_iff {stroke first crossing last : Char} {segs : List (List Char)}
    (hsegs : ∀ segment ∈ segs, ∀ c ∈ segment, c = stroke)
    (hmarks : first ≠ stroke ∧ crossing ≠ stroke ∧ last ≠ stroke) (i : Nat) :
    i ∈ places (segs.map List.length) ↔
      ∃ c, (enclosed first crossing last segs)[i]? = some c ∧ c ≠ stroke := by
  induction segs generalizing first i with
  | nil =>
    cases i with
    | zero => simp [places, enclosed, hmarks.2.2]
    | succ i => simp [places, enclosed]
  | cons segment rest ih =>
    obtain ⟨hsegment, hrest⟩ := List.forall_mem_cons.1 hsegs
    have hbehind := ih hrest ⟨hmarks.2.1, hmarks.2⟩
    rw [List.map_cons, places, List.mem_cons, List.mem_map, enclosed]
    cases i with
    | zero => simp [hmarks.1]
    | succ i =>
      rw [List.cons_append, List.getElem?_cons_succ]
      by_cases hinside : i < segment.length
      · -- Inside the segment there is a stroke, and the next mark stands behind it.
        have hstroke : segment[i] = stroke := hsegment _ (List.getElem_mem hinside)
        rw [List.getElem?_append_left hinside, List.getElem?_eq_getElem hinside, hstroke]
        constructor
        · rintro (h | ⟨p, -, hp⟩)
          · cases h
          · omega
        · rintro ⟨c, hread, hc⟩
          cases hread
          exact absurd rfl hc
      · rw [List.getElem?_append_right (by omega), ← hbehind]
        constructor
        · rintro (h | ⟨p, hmem, hp⟩)
          · cases h
          · rwa [show i - segment.length = p by omega]
        · intro hmem
          exact .inr ⟨_, hmem, by omega⟩

section Uniform

variable (mark : Char) {segs : List (List Char)}

theorem exists_enclosed_eq_cons (segs : List (List Char)) :
    ∃ behind, enclosed mark mark mark segs = mark :: behind := by
  cases segs with
  | nil => exact ⟨[], rfl⟩
  | cons segment rest => exact ⟨_, rfl⟩

theorem places_head? (ns : List Nat) : (places ns)[0]? = some 0 := by
  cases ns <;> rfl

/-- At every place stands a mark. -/
theorem getElem?_enclosed {p : Nat} (h : p ∈ places (segs.map List.length)) :
    (enclosed mark mark mark segs)[p]? = some mark := by
  induction segs generalizing p with
  | nil =>
    obtain rfl := List.mem_singleton.1 h
    rfl
  | cons segment rest ih =>
    rw [List.map_cons, places, List.mem_cons, List.mem_map] at h
    rcases h with rfl | ⟨q, hq, rfl⟩
    · rfl
    · rw [enclosed, List.getElem?_append_right (by rw [List.length_cons]; omega),
        List.length_cons, Nat.add_sub_cancel_left]
      exact ih hq

/-- A segment stands between the marks at the place of its number and at the next one. -/
theorem exists_segment {j : Nat} {segment : List Char} (h : segs[j]? = some segment) :
    ∃ before behind, enclosed mark mark mark segs = before ++ mark :: segment ++ mark :: behind ∧
      (places (segs.map List.length))[j]? = some before.length ∧
      (places (segs.map List.length))[j + 1]? = some (before.length + segment.length + 1) := by
  induction segs generalizing j with
  | nil => cases h
  | cons first rest ih =>
    rw [List.map_cons, places, List.getElem?_cons_succ, List.getElem?_map, enclosed]
    cases j with
    | zero =>
      cases h
      obtain ⟨behind, hbehind⟩ := exists_enclosed_eq_cons mark rest
      refine ⟨[], behind, ?_, rfl, ?_⟩
      · rw [hbehind, List.nil_append]
      · rw [places_head?, List.length_nil, Nat.zero_add]
        rfl
    | succ j =>
      obtain ⟨before, behind, hline, hplace, hnext⟩ := ih h
      refine ⟨mark :: first ++ before, behind, ?_, ?_, ?_⟩
      · rw [hline]
        simp only [List.append_assoc]
      · rw [List.getElem?_cons_succ, List.getElem?_map, hplace, List.length_append,
          List.length_cons]
        rfl
      · rw [hnext, List.length_append, List.length_cons, Option.map_some]
        refine congrArg some ?_
        omega

end Uniform

end SqlEngine.Grid
