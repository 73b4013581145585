import SqlEngine.Proofs.Pattern.Segments

/-!
# Matching with the latest run only

The matching of segments finds what the rule says, although after a mismatch only the latest `%` is
reconsidered. Nothing is lost by forgetting the ones before it: the segments between two `%` take up
a fixed number of characters, so a match in which an earlier `%` takes in more reaches the latest
one further on in the text, and the latest one can take in what lies between.
-/
namespace SqlEngine.Pattern

variable {segments front : List Segment} {text : List Char}

/-- The number of characters that segments other than `%` take up. -/
def width : List Segment → Nat
  | [] => 0
  | .literal cs :: rest => cs.length + width rest
  | .anyOne :: rest => width rest + 1
  | .anyRun :: rest => width rest

/-- Segments without `%` take up as many characters as their width says. -/
theorem Fits.split (hproper : Proper front) (hrun : .anyRun ∉ front)
    (h : Fits (front ++ segments) text) :
    ∃ taken rest, text = taken ++ rest ∧ taken.length = width front ∧ Fits segments rest := by
  induction front generalizing text with
  | nil => exact ⟨[], text, rfl, rfl, h⟩
  | cons segment front ih =>
    obtain ⟨hsegment, hfront⟩ := not_or.1 (mt List.mem_cons.2 hrun)
    have ih := fun {text} => @ih text (hproper.of_suffix (List.suffix_cons ..)) hfront
    cases segment with
    | literal cs =>
      obtain ⟨behind, rfl, hbehind⟩ := (fits_literal (hproper cs List.mem_cons_self).2).1 h
      obtain ⟨taken, rest, rfl, hlength, hrest⟩ := ih hbehind
      refine ⟨cs ++ taken, rest, (List.append_assoc ..).symm, ?_, hrest⟩
      rw [List.length_append, hlength]
      rfl
    | anyOne =>
      obtain ⟨c, behind, rfl, hbehind⟩ := fits_anyOne.1 h
      obtain ⟨taken, rest, rfl, hlength, hrest⟩ := ih hbehind
      refine ⟨c :: taken, rest, rfl, ?_, hrest⟩
      rw [List.length_cons, hlength]
      rfl
    | anyRun => exact absurd rfl hsegment

/-- A step forward takes up the width of one segment. -/
theorem exists_of_forward {segments' : List Segment} {text' : List Char}
    (h : forward segments text = some (segments', text')) :
    ∃ segment taken, segments = segment :: segments' ∧ text = taken ++ text' ∧
      segment ≠ .anyRun ∧ taken.length = width [segment] := by
  rcases forward_cases h with ⟨cs, rfl, rfl⟩ | ⟨c, rfl, rfl⟩
  · exact ⟨.literal cs, cs, rfl, rfl, nofun, rfl⟩
  · exact ⟨.anyOne, [c], rfl, rfl, nofun, rfl⟩

theorem width_append (front segments : List Segment) :
    width (front ++ segments) = width front + width segments := by
  induction front with
  | nil => exact (Nat.zero_add _).symm
  | cons segment front ih => cases segment <;> simp only [List.cons_append, width, ih] <;> omega

namespace Matching

/-- The segments that are left match, or those behind the latest `%` match further on. -/
def Succeeds (m : Matching) : Prop :=
  Fits m.segments m.text ∨
    ∃ r ∈ m.resume, ∃ text, text <:+ r.2 ∧ text ≠ r.2 ∧ Fits r.1 text

/-- Since the latest `%` only segments of a fixed width have been matched, and they take up the text
in between. -/
structure Sound (m : Matching) : Prop where
  proper : Proper m.segments
  aligned : ∀ r ∈ m.resume, ∃ front taken, Proper r.1 ∧ r.1 = front ++ m.segments ∧
    r.2 = taken ++ m.text ∧ .anyRun ∉ front ∧ taken.length = width front

theorem Sound.behindRun (hproper : Proper segments) (text : List Char) :
    (behindRun segments text).Sound where
  proper := hproper
  aligned := by
    rintro _ ⟨⟩
    exact ⟨[], [], hproper, rfl, rfl, List.not_mem_nil, rfl⟩

/-- Behind a `%` a match may begin anywhere. -/
theorem succeeds_behindRun :
    (behindRun segments text).Succeeds ↔ ∃ rest, rest <:+ text ∧ Fits segments rest := by
  constructor
  · rintro (h | ⟨_, ⟨⟩, rest, hsuffix, -, h⟩)
    · exact ⟨text, List.suffix_refl _, h⟩
    · exact ⟨rest, hsuffix, h⟩
  · rintro ⟨rest, hsuffix, h⟩
    by_cases heq : rest = text
    · exact .inl (heq ▸ h)
    · exact .inr ⟨(segments, text), rfl, rest, hsuffix, heq, h⟩

variable {m : Matching}

/-- Where a match exists at all, the segments that are left match some end of the text that is
left. -/
theorem Sound.exists_rest (h : m.Sound) (hsucceeds : m.Succeeds) :
    ∃ rest, rest <:+ m.text ∧ Fits m.segments rest := by
  rcases hsucceeds with hfits | ⟨⟨after, start⟩, hr, text, hsuffix, hne, hfits⟩
  · exact ⟨m.text, List.suffix_refl _, hfits⟩
  · obtain ⟨front, taken, hproper, hafter, hstart, hrun, hwidth⟩ := h.aligned _ hr
    dsimp only at hafter hstart hsuffix hfits hne hproper
    subst hafter hstart
    have hfront : Proper front := fun cs hcs => hproper cs (List.mem_append_left _ hcs)
    obtain ⟨taken', rest, rfl, hlength, hfits⟩ := hfits.split hfront hrun
    refine ⟨rest, ?_, hfits⟩
    have hrest : rest <:+ taken ++ m.text := (List.suffix_append taken' rest).trans hsuffix
    have hle := hsuffix.length_le
    rw [List.length_append, List.length_append, hlength, hwidth] at hle
    exact List.suffix_of_suffix_length_le hrest (List.suffix_append ..) (by omega)

/-- A step keeps the matching sound. -/
theorem Sound.next {m' : Matching} (h : m.Sound) (hnext : m.next = .inr m') : m'.Sound := by
  have hstep := m.step_next
  rw [hnext] at hstep
  cases hstep with
  | run htext hrun => exact .behindRun (h.proper.of_suffix (List.tail_suffix _)) _
  | forward hforward =>
    obtain ⟨segment, piece, hsegments, htext, hrun, hpiece⟩ := exists_of_forward hforward
    refine ⟨h.proper.of_suffix (forward_suffix hforward).1, fun r hr => ?_⟩
    obtain ⟨front, taken, hproper, hafter, hstart, hfront, hwidth⟩ := h.aligned r hr
    refine ⟨front ++ [segment], taken ++ piece, hproper, ?_, ?_, ?_, ?_⟩
    · rw [hafter, hsegments, List.append_assoc]
      rfl
    · rw [hstart, htext, List.append_assoc]
    · exact fun hmem => (List.mem_append.1 hmem).elim hfront fun hmem =>
        hrun (List.mem_singleton.1 hmem).symm
    · rw [List.length_append, hwidth, hpiece, width_append]
  | resumed htext hrun hforward hresume =>
    obtain ⟨_, _, hproper, _⟩ := h.aligned _ hresume
    exact .behindRun hproper _

/-- A step keeps open whether the matching succeeds. -/
theorem Sound.succeeds_next {m' : Matching} (h : m.Sound) (hnext : m.next = .inr m') :
    m'.Succeeds ↔ m.Succeeds := by
  have hstep := m.step_next
  rw [hnext] at hstep
  cases hstep with
  | run htext hrun =>
    obtain ⟨segments, hsegments⟩ := List.head?_eq_some_iff.1 hrun
    rw [succeeds_behindRun, hsegments, List.tail_cons, ← fits_anyRun, ← hsegments]
    refine ⟨.inl, fun hsucceeds => ?_⟩
    obtain ⟨rest, hrest, hfits⟩ := h.exists_rest hsucceeds
    rw [hsegments, fits_anyRun] at hfits ⊢
    obtain ⟨end', hend, hfits⟩ := hfits
    exact ⟨end', hend.trans hrest, hfits⟩
  | forward hforward => exact or_congr_left (fits_of_forward h.proper hforward).symm
  | @resumed after start htext hrun hforward hresume =>
    have hnot := not_fits_of_forward h.proper htext hrun hforward
    have hstart : start ≠ [] := fun hnil => by
      have hsuffix := m.text_suffix _ hresume
      rw [hnil] at hsuffix
      exact htext (List.suffix_nil.1 hsuffix)
    obtain ⟨c, start, rfl⟩ := List.exists_cons_of_ne_nil hstart
    rw [succeeds_behindRun, List.tail_cons, Succeeds, or_iff_right hnot, hresume]
    constructor
    · rintro ⟨rest, hrest, hfits⟩
      refine ⟨_, rfl, rest, hrest.trans (List.suffix_cons ..), ?_, hfits⟩
      rintro rfl
      exact Nat.not_succ_le_self _ hrest.length_le
    · rintro ⟨_, ⟨⟩, rest, hrest, hne, hfits⟩
      exact ⟨rest, (List.suffix_cons_iff.1 hrest).resolve_left hne, hfits⟩

/-- An answer says whether the matching succeeds. -/
theorem Sound.succeeds_answer {answer : Bool} (h : m.Sound) (hnext : m.next = .inl answer) :
    answer = true ↔ m.Succeeds := by
  have hstep := m.step_next
  rw [hnext] at hstep
  cases hstep with
  | ended htext =>
    rw [← fits_end h.proper]
    refine ⟨fun hfits => .inl (htext ▸ hfits), fun hsucceeds => ?_⟩
    obtain ⟨rest, hrest, hfits⟩ := h.exists_rest hsucceeds
    rw [htext] at hrest
    exact List.suffix_nil.1 hrest ▸ hfits
  | failed htext hrun hforward hresume =>
    refine ⟨nofun, ?_⟩
    rintro (hfits | ⟨r, hr, -⟩)
    · exact absurd hfits (not_fits_of_forward h.proper htext hrun hforward)
    · rw [hresume] at hr
      cases hr

/-- The steps end with the right answer. -/
theorem Sound.answer_iff (h : m.Sound) : m.answer = true ↔ m.Succeeds := by
  fun_induction answer m with
  | case1 m answer hnext => exact h.succeeds_answer hnext
  | case2 m m' hnext ih => rw [ih (h.next hnext), h.succeeds_next hnext]

end Matching

/-- Segments are matched as the rule says. -/
theorem matchSegments_iff (hproper : Proper segments) (text : List Char) :
    matchSegments segments text = true ↔ Fits segments text := by
  have hnone : ∀ r : List Segment × List Char, r ∉ (none : Option _) := fun r => by rintro ⟨⟩
  rw [matchSegments, Matching.Sound.answer_iff ⟨hproper, fun r hr => absurd hr (hnone r)⟩,
    Matching.Succeeds]
  exact or_iff_left fun ⟨r, hr, _⟩ => hnone r hr

end SqlEngine.Pattern
