import SqlEngine.Text.Case

/-!
# LIKE patterns

A pattern is matched against a whole text, without regard to case: `%` stands for any run of
characters, `_` for any one character, and every other character for itself. Patterns without `_`
whose only `%` stand at their ends are recognised and matched directly. All others are cut into
segments, which are matched from the front of the text on. After a mismatch the latest `%` takes in
one more character; the choices made for the ones before it are never reconsidered, so that the work
is at most the product of the two lengths.
-/
namespace SqlEngine

namespace Pattern

/-- A segment of a pattern: characters that stand for themselves, or one of the two wildcards. -/
inductive Segment where
  | literal (cs : List Char)
  | anyOne
  | anyRun
deriving DecidableEq

/-- Characters that stand for themselves as a segment, if there are any, before other segments. -/
def prepend (literal : List Char) (segments : List Segment) : List Segment :=
  if literal.isEmpty then segments else .literal literal :: segments

/-- The segments of a pattern. `literal` holds the characters since the last wildcard. -/
def segmentsFrom (literal : List Char) : List Char → List Segment
  | [] => prepend literal []
  | c :: rest =>
    if c = '%' then prepend literal (.anyRun :: segmentsFrom [] rest)
    else if c = '_' then prepend literal (.anyOne :: segmentsFrom [] rest)
    else segmentsFrom (literal ++ [c]) rest

/-- The shapes of patterns that are told apart. -/
inductive Form where
  | exactly (text : List Char)
  | startingWith (text : List Char)
  | endingWith (text : List Char)
  | containing (text : List Char)
  | general (segments : List Segment)
deriving DecidableEq

/-- The form of a pattern in small letters. -/
def Form.ofChars (cs : List Char) : Form :=
  let general := Form.general (segmentsFrom [] cs)
  if cs.contains '_' then general
  else match cs.count '%' with
    | 0 => .exactly cs
    | 1 =>
      if cs.getLast? = some '%' then .startingWith cs.dropLast
      else if cs.head? = some '%' then .endingWith cs.tail
      else general
    | 2 =>
      if 2 < cs.length && cs.head? = some '%' && cs.getLast? = some '%' then
        .containing cs.tail.dropLast
      else general
    | _ => general

/-- The form that a pattern is matched in. -/
def Form.ofPattern (pattern : String) : Form := ofChars (Text.lower pattern).toList

/-- What is left of the segments and of the text when the first segment has been matched, where that
is not a `%`. -/
def forward : List Segment → List Char → Option (List Segment × List Char)
  | .anyOne :: segments, _ :: text => some (segments, text)
  | .literal cs :: segments, text =>
    if cs.isPrefixOf text then some (segments, text.drop cs.length) else none
  | _, _ => none

theorem forward_suffix {segments segments' : List Segment} {text text' : List Char}
    (h : forward segments text = some (segments', text')) :
    segments' <:+ segments ∧ segments'.length < segments.length ∧ text' <:+ text := by
  rcases segments with _ | ⟨cs | _ | _, segments⟩
  · cases h
  · rw [forward] at h
    split at h
    · cases h
      exact ⟨List.suffix_cons .., Nat.lt_succ_self _, List.drop_suffix ..⟩
    · cases h
  · cases text with
    | nil => cases h
    | cons c text =>
      cases h
      exact ⟨List.suffix_cons .., Nat.lt_succ_self _, List.suffix_cons ..⟩
  · cases h

/-- Segments on their way through a text: what is left of both, and behind a `%` where to resume
after a mismatch, with the segments behind the latest `%` and the text they were last tried at. -/
structure Matching where
  segments : List Segment
  text : List Char
  resume : Option (List Segment × List Char)
  segments_suffix : ∀ r ∈ resume, segments <:+ r.1
  text_suffix : ∀ r ∈ resume, text <:+ r.2

namespace Matching

/-- The segments at the front of the text, behind a `%` or not. -/
def behindRun (segments : List Segment) (text : List Char) : Matching where
  segments := segments
  text := text
  resume := some (segments, text)
  segments_suffix := by rintro _ ⟨⟩; exact List.suffix_refl _
  text_suffix := by rintro _ ⟨⟩; exact List.suffix_refl _

/-- The next step: an answer, or what is left to match. -/
def next (m : Matching) : Bool ⊕ Matching :=
  if m.text = [] then .inl (m.segments.all (· = .anyRun))
  else if m.segments.head? = some .anyRun then .inr (behindRun m.segments.tail m.text)
  else
    match h : forward m.segments m.text with
    | some (segments, text) => .inr {
        segments, text
        resume := m.resume
        segments_suffix := fun r hr => (forward_suffix h).1.trans (m.segments_suffix r hr)
        text_suffix := fun r hr => (forward_suffix h).2.2.trans (m.text_suffix r hr) }
    | none =>
      match m.resume with
      | some (after, start) => .inr (behindRun after start.tail)
      | none => .inl false

/-- What a step can be. -/
inductive Step (m : Matching) : Bool ⊕ Matching → Prop
  | ended (htext : m.text = []) : Step m (.inl (m.segments.all (· = .anyRun)))
  | run (htext : m.text ≠ []) (hrun : m.segments.head? = some .anyRun) :
    Step m (.inr (behindRun m.segments.tail m.text))
  | forward {segments : List Segment} {text : List Char} {hsegments htext}
    (h : Pattern.forward m.segments m.text = some (segments, text)) :
    Step m (.inr ⟨segments, text, m.resume, hsegments, htext⟩)
  | resumed {after : List Segment} {start : List Char} (htext : m.text ≠ [])
    (hrun : m.segments.head? ≠ some .anyRun) (h : Pattern.forward m.segments m.text = none)
    (hresume : m.resume = some (after, start)) : Step m (.inr (behindRun after start.tail))
  | failed (htext : m.text ≠ []) (hrun : m.segments.head? ≠ some .anyRun)
    (h : Pattern.forward m.segments m.text = none) (hresume : m.resume = none) :
    Step m (.inl false)

theorem step_next (m : Matching) : m.Step m.next := by
  rw [next]
  split
  · next htext => exact .ended htext
  · next htext =>
    split
    · next hrun => exact .run htext hrun
    · next hrun =>
      split
      · next h => exact .forward h
      · next h =>
        split
        · next hresume => exact .resumed htext hrun h hresume
        · next hresume => exact .failed htext hrun h hresume

/-- The segments to which a mismatch leads back, or those that are left while there are none. -/
def after (m : Matching) : List Segment := m.resume.elim m.segments (·.1)

/-- The text to which a mismatch leads back, or the text that is left. -/
def start (m : Matching) : List Char := m.resume.elim m.text (·.2)

theorem length_le_after (m : Matching) : m.segments.length ≤ m.after.length := by
  cases h : m.resume with
  | none => simp [after, h]
  | some r => simpa [after, h] using (m.segments_suffix r h).length_le

theorem length_le_start (m : Matching) : m.text.length ≤ m.start.length := by
  cases h : m.resume with
  | none => simp [start, h]
  | some r => simpa [start, h] using (m.text_suffix r h).length_le

/-- A bound for the number of steps that are left. -/
def budget (m : Matching) : Nat := m.start.length * (m.after.length + 1) + m.segments.length

/-- A `%` uses up segments, a match uses up segments, and a mismatch uses up text. -/
theorem budget_next {m m' : Matching} (h : m.next = .inr m') : m'.budget < m.budget := by
  have hstep := m.step_next
  rw [h] at hstep
  cases hstep with
  | run hne hrun =>
    obtain ⟨segments, hrest⟩ := List.head?_eq_some_iff.1 hrun
    have hless : segments.length + 1 ≤ m.after.length := by simpa [hrest] using m.length_le_after
    calc (behindRun m.segments.tail m.text).budget
      _ = m.text.length * (segments.length + 1) + segments.length := by rw [hrest]; rfl
      _ ≤ m.start.length * (m.after.length + 1) + segments.length :=
        Nat.add_le_add_right (Nat.mul_le_mul m.length_le_start (by omega)) _
      _ < m.budget := Nat.add_lt_add_left (by rw [hrest]; exact Nat.lt_succ_self _) _
  | forward hforward =>
    obtain ⟨-, hless, hrest⟩ := forward_suffix hforward
    refine Nat.add_lt_add_of_le_of_lt ?_ hless
    rcases Option.eq_none_or_eq_some m.resume with hresume | ⟨r, hresume⟩
    · simp only [start, after, hresume, Option.elim_none]
      exact Nat.mul_le_mul hrest.length_le (by omega)
    · simp only [start, after, hresume, Option.elim_some, Nat.le_refl]
  | @resumed after start hne hrun hforward hresume =>
    have hpos : start ≠ [] := fun hnil => by
      have hsuffix := m.text_suffix _ hresume
      rw [hnil] at hsuffix
      exact hne (List.suffix_nil.1 hsuffix)
    obtain ⟨c, rest, rfl⟩ := List.exists_cons_of_ne_nil hpos
    have hbudget : m.budget = (rest.length + 1) * (after.length + 1) + m.segments.length := by
      rw [budget, Matching.start, Matching.after, hresume]
      rfl
    calc (behindRun after rest).budget
      _ = rest.length * (after.length + 1) + after.length := rfl
      _ < (rest.length + 1) * (after.length + 1) := by rw [Nat.succ_mul]; omega
      _ ≤ m.budget := hbudget ▸ Nat.le_add_right _ _

/-- Whether the segments match the text. -/
def answer (m : Matching) : Bool :=
  match _h : m.next with
  | .inl answer => answer
  | .inr m' => m'.answer
termination_by m.budget
decreasing_by exact budget_next _h

end Matching

/-- Segments match a whole text. -/
def matchSegments (segments : List Segment) (text : List Char) : Bool :=
  Matching.answer {
    segments, text
    resume := none
    segments_suffix := nofun
    text_suffix := nofun }

/-- Characters stand somewhere in a text, next to each other. -/
def occurs (cs : List Char) : List Char → Bool
  | [] => cs.isEmpty
  | c :: text => cs.isPrefixOf (c :: text) || occurs cs text

/-- A text in small letters has the given form. -/
def Form.fits (text : List Char) : Form → Bool
  | exactly cs => text == cs
  | startingWith cs => cs.isPrefixOf text
  | endingWith cs => cs.isSuffixOf text
  | containing cs => occurs cs text
  | general segments => matchSegments segments text

end Pattern

/-- A text is like a pattern. -/
def isLike (text pattern : String) : Bool :=
  (Pattern.Form.ofPattern pattern).fits (Text.lower text).toList

end SqlEngine
