import SqlEngine.Pattern

/-!
# Patterns and their segments

The rule of LIKE, as a relation between the characters of a pattern and of a text. The segments of a
pattern make it up, so they match what it matches, and each kind of segment takes its own part of
the text from the front.
-/
namespace SqlEngine.Pattern

/-- A text matches a pattern. -/
inductive Matches : List Char → List Char → Prop
  | nil : Matches [] []
  | run (taken : List Char) {pattern text : List Char} (h : Matches pattern text) :
    Matches ('%' :: pattern) (taken ++ text)
  | one (c : Char) {pattern text : List Char} (h : Matches pattern text) :
    Matches ('_' :: pattern) (c :: text)
  | self {c : Char} {pattern text : List Char} (hrun : c ≠ '%') (hone : c ≠ '_')
    (h : Matches pattern text) : Matches (c :: pattern) (c :: text)

section Rule

variable {pattern text : List Char}

theorem matches_nil : Matches [] text ↔ text = [] :=
  ⟨fun | .nil => rfl, fun h => h ▸ .nil⟩

theorem matches_run :
    Matches ('%' :: pattern) text ↔ ∃ rest, rest <:+ text ∧ Matches pattern rest := by
  constructor
  · rintro (_ | ⟨taken, h⟩ | _ | ⟨hrun, _, _⟩)
    · exact ⟨_, List.suffix_append _ _, h⟩
    · exact absurd rfl hrun
  · rintro ⟨rest, ⟨taken, rfl⟩, h⟩
    exact .run taken h

theorem matches_one :
    Matches ('_' :: pattern) text ↔ ∃ c rest, text = c :: rest ∧ Matches pattern rest := by
  constructor
  · rintro (_ | _ | ⟨c, h⟩ | ⟨_, hone, _⟩)
    · exact ⟨c, _, rfl, h⟩
    · exact absurd rfl hone
  · rintro ⟨c, rest, rfl, h⟩
    exact .one c h

theorem matches_self {c : Char} (hrun : c ≠ '%') (hone : c ≠ '_') :
    Matches (c :: pattern) text ↔ ∃ rest, text = c :: rest ∧ Matches pattern rest := by
  constructor
  · rintro (_ | _ | _ | ⟨_, _, h⟩)
    · exact absurd rfl hrun
    · exact absurd rfl hone
    · exact ⟨_, rfl, h⟩
  · rintro ⟨rest, rfl, h⟩
    exact .self hrun hone h

/-- No character stands for anything but itself. -/
def Plain (cs : List Char) : Prop := ∀ c ∈ cs, c ≠ '%' ∧ c ≠ '_'

/-- Characters that stand for themselves are found at the front of the text. -/
theorem matches_append {cs : List Char} (hplain : Plain cs) :
    Matches (cs ++ pattern) text ↔ ∃ rest, text = cs ++ rest ∧ Matches pattern rest := by
  induction cs generalizing text with
  | nil => simp
  | cons c cs ih =>
    obtain ⟨hc, hcs⟩ := List.forall_mem_cons.1 hplain
    rw [List.cons_append, matches_self hc.1 hc.2]
    constructor
    · rintro ⟨_, rfl, h⟩
      obtain ⟨rest, rfl, hrest⟩ := (ih hcs).1 h
      exact ⟨rest, rfl, hrest⟩
    · rintro ⟨rest, rfl, h⟩
      exact ⟨cs ++ rest, rfl, (ih hcs).2 ⟨rest, rfl, h⟩⟩

end Rule

section Segments

/-- The characters of a pattern that make a segment. -/
def Segment.written : Segment → List Char
  | .literal cs => cs
  | .anyOne => ['_']
  | .anyRun => ['%']

/-- A text matches the pattern that segments make. -/
def Fits (segments : List Segment) (text : List Char) : Prop :=
  Matches (segments.flatMap Segment.written) text

/-- Literal segments are not empty and stand for themselves. -/
def Proper (segments : List Segment) : Prop :=
  ∀ cs, .literal cs ∈ segments → cs ≠ [] ∧ Plain cs

variable {segments : List Segment} {text : List Char}

theorem Proper.of_suffix {other : List Segment} (h : Proper segments)
    (hsuffix : other <:+ segments) :
    Proper other := fun cs hcs => h cs (hsuffix.subset hcs)

theorem fits_nil : Fits [] text ↔ text = [] := matches_nil

theorem fits_anyRun :
    Fits (.anyRun :: segments) text ↔ ∃ rest, rest <:+ text ∧ Fits segments rest :=
  matches_run

theorem fits_anyOne :
    Fits (.anyOne :: segments) text ↔ ∃ c rest, text = c :: rest ∧ Fits segments rest := matches_one

theorem fits_literal {cs : List Char} (hplain : Plain cs) :
    Fits (.literal cs :: segments) text ↔ ∃ rest, text = cs ++ rest ∧ Fits segments rest :=
  matches_append hplain

theorem written_prepend (literal : List Char) (segments : List Segment) :
    (prepend literal segments).flatMap Segment.written =
      literal ++ segments.flatMap Segment.written := by
  cases literal <;> rfl

theorem proper_prepend {literal : List Char} (hliteral : Plain literal) (h : Proper segments) :
    Proper (prepend literal segments) := by
  intro cs hcs
  cases literal with
  | nil => exact h cs hcs
  | cons c rest =>
    rcases List.mem_cons.1 hcs with heq | hcs
    · cases heq
      exact ⟨List.cons_ne_nil c rest, hliteral⟩
    · exact h cs hcs

/-- A wildcard is a segment of its own. -/
theorem proper_cons {segment : Segment} (hsegment : ∀ cs, segment ≠ .literal cs)
    (h : Proper segments) : Proper (segment :: segments) := by
  intro cs hcs
  rcases List.mem_cons.1 hcs with heq | hcs
  · exact absurd heq.symm (hsegment cs)
  · exact h cs hcs

/-- The segments of a pattern are the whole pattern. -/
theorem written_segmentsFrom (literal pattern : List Char) :
    (segmentsFrom literal pattern).flatMap Segment.written = literal ++ pattern := by
  induction pattern generalizing literal with
  | nil => exact written_prepend literal []
  | cons c rest ih =>
    rw [segmentsFrom]
    split
    · next hc => rw [written_prepend, List.flatMap_cons, ih, hc]; rfl
    · split
      · next hc => rw [written_prepend, List.flatMap_cons, ih, hc]; rfl
      · rw [ih, List.append_assoc]
        rfl

theorem proper_segmentsFrom {literal : List Char} (hliteral : Plain literal) (pattern : List Char) :
    Proper (segmentsFrom literal pattern) := by
  induction pattern generalizing literal with
  | nil => exact proper_prepend hliteral (fun cs hcs => absurd hcs List.not_mem_nil)
  | cons c rest ih =>
    have hnil : Plain [] := fun c hc => absurd hc List.not_mem_nil
    rw [segmentsFrom]
    split
    · exact proper_prepend hliteral (proper_cons nofun (ih hnil))
    · next hrun =>
      split
      · exact proper_prepend hliteral (proper_cons nofun (ih hnil))
      · next hone =>
        refine ih fun d hd => ?_
        rcases List.mem_append.1 hd with hd | hd
        · exact hliteral d hd
        · rw [List.mem_singleton.1 hd]
          exact ⟨hrun, hone⟩

/-- A step forward passes over characters that stand for themselves, or over any one character. -/
theorem forward_cases {segments' : List Segment} {text' : List Char}
    (h : forward segments text = some (segments', text')) :
    (∃ cs, segments = .literal cs :: segments' ∧ text = cs ++ text') ∨
      ∃ c, segments = .anyOne :: segments' ∧ text = c :: text' := by
  rcases segments with _ | ⟨cs | _ | _, segments⟩
  · cases h
  · rw [forward] at h
    split at h
    · next hprefix =>
      obtain ⟨rest, rfl⟩ := List.isPrefixOf_iff_prefix.1 hprefix
      cases h
      exact .inl ⟨cs, rfl, by rw [List.drop_left]⟩
    · cases h
  · cases text with
    | nil => cases h
    | cons c rest =>
      cases h
      exact .inr ⟨c, rfl, rfl⟩
  · cases h

/-- A step forward leaves open what was open before. -/
theorem fits_of_forward {segments' : List Segment} {text' : List Char} (hproper : Proper segments)
    (h : forward segments text = some (segments', text')) :
    Fits segments text ↔ Fits segments' text' := by
  rcases forward_cases h with ⟨cs, rfl, rfl⟩ | ⟨c, rfl, rfl⟩
  · rw [fits_literal (hproper cs List.mem_cons_self).2]
    constructor
    · rintro ⟨rest, heq, hrest⟩
      exact List.append_cancel_left heq ▸ hrest
    · exact fun hrest => ⟨text', rfl, hrest⟩
  · rw [fits_anyOne]
    constructor
    · rintro ⟨d, rest, heq, hrest⟩
      cases heq
      exact hrest
    · exact fun hrest => ⟨c, text', rfl, hrest⟩

/-- Where no step forward is possible and no `%` stands in front, the segments do not match. -/
theorem not_fits_of_forward (hproper : Proper segments) (htext : text ≠ [])
    (hrun : segments.head? ≠ some .anyRun) (h : forward segments text = none) :
    ¬ Fits segments text := by
  rcases segments with _ | ⟨cs | _ | _, segments⟩
  · exact fun hfits => htext (fits_nil.1 hfits)
  · rw [fits_literal (hproper cs List.mem_cons_self).2]
    rintro ⟨after, rfl, -⟩
    rw [forward, if_pos (List.isPrefixOf_iff_prefix.2 (List.prefix_append cs after))] at h
    cases h
  · obtain ⟨c, rest, rfl⟩ := List.exists_cons_of_ne_nil htext
    cases h
  · exact absurd rfl hrun

/-- At the end of the text nothing but `%` may be left. -/
theorem fits_end (hproper : Proper segments) :
    Fits segments [] ↔ segments.all (· = .anyRun) = true := by
  induction segments with
  | nil => exact ⟨fun _ => rfl, fun _ => fits_nil.2 rfl⟩
  | cons segment segments ih =>
    have hrest := ih (hproper.of_suffix (List.suffix_cons ..))
    cases segment with
    | literal cs =>
      obtain ⟨hne, hplain⟩ := hproper cs List.mem_cons_self
      rw [fits_literal hplain]
      constructor
      · rintro ⟨rest, heq, -⟩
        exact absurd (List.append_eq_nil_iff.1 heq.symm).1 hne
      · exact fun h => by simp at h
    | anyOne =>
      rw [fits_anyOne]
      constructor
      · rintro ⟨_, _, heq, -⟩
        cases heq
      · exact fun h => by simp at h
    | anyRun =>
      rw [fits_anyRun, List.all_cons, decide_eq_true rfl, Bool.true_and, ← hrest]
      constructor
      · rintro ⟨rest, hsuffix, h⟩
        exact List.suffix_nil.1 hsuffix ▸ h
      · exact fun h => ⟨[], List.suffix_refl _, h⟩

end Segments

end SqlEngine.Pattern
