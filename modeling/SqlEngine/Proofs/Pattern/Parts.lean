import SqlEngine.Proofs.Pattern.Like

/-!
# Patterns made from a text

A text is cut into parts, and a pattern is made from it: some parts are replaced by `%`, some single
characters by `_`, and the other characters stay. The text should be like every such pattern.
Pattern and text are taken in small letters apart, though, so this needs that both have the same
small form where a character stays, and that a character in whose place `_` stands has a small form
of one character. Only the capital sigma, whose small form depends on its neighbours, and the dotted
capital I, whose small form has two characters, can stand in the way.
-/
namespace SqlEngine.Pattern

open Text (lowerAfter lowerChar lowerSigma)

/-- A part of a text from which a pattern is made. -/
inductive Part where
  /-- A character that stays. -/
  | kept (c : Char)
  /-- A character that is replaced by `_`. -/
  | one (c : Char)
  /-- Characters, perhaps none, that are replaced by `%`. -/
  | run (cs : List Char)
deriving DecidableEq

namespace Part

/-- The characters of a part in the text. -/
def text : Part → List Char
  | kept c => [c]
  | one c => [c]
  | run cs => cs

/-- The characters of a part in the pattern. -/
def pattern : Part → List Char
  | kept c => [c]
  | one _ => ['_']
  | run _ => ['%']

end Part

/-- The text that is cut into the parts. -/
def textOf (parts : List Part) : List Char := parts.flatMap Part.text

/-- The pattern that is made from the parts. -/
def patternOf (parts : List Part) : List Char := parts.flatMap Part.pattern

/-- Every capital sigma that stays has the same small form in the pattern as in the text. Before the
parts stand the given characters of the text and of the pattern, backwards. -/
def SigmasAlike (before prior : List Char) (parts : List Part) : Prop :=
  ∀ i < parts.length, parts[i]? = some (.kept 'Σ') →
    lowerSigma ((textOf (parts.take i)).reverse ++ before) (textOf (parts.drop (i + 1))) =
      lowerSigma ((patternOf (parts.take i)).reverse ++ prior) (patternOf (parts.drop (i + 1)))

instance (before prior : List Char) (parts : List Part) :
    Decidable (SigmasAlike before prior parts) :=
  inferInstanceAs (Decidable (∀ i < parts.length, _ → _))

/-- What holds of all parts holds of those behind the first one. -/
theorem SigmasAlike.tail {before prior : List Char} {part : Part} {parts : List Part}
    (h : SigmasAlike before prior (part :: parts)) :
    SigmasAlike (part.text.reverse ++ before) (part.pattern.reverse ++ prior) parts := by
  intro i hi hkept
  have hnext := h (i + 1) (Nat.succ_lt_succ hi) hkept
  simpa [textOf, patternOf] using hnext

/-- What stands at the front of a text has some small form, and the rest goes on behind it. -/
theorem exists_lowerAfter_append (before cs ds : List Char) :
    ∃ small, lowerAfter before (cs ++ ds) = small ++ lowerAfter (cs.reverse ++ before) ds := by
  induction cs generalizing before with
  | nil => exact ⟨[], rfl⟩
  | cons c rest ih =>
    obtain ⟨small, hsmall⟩ := ih (c :: before)
    rw [List.cons_append, lowerAfter, hsmall, List.reverse_cons, List.append_assoc]
    exact ⟨_, (List.append_assoc _ _ _).symm⟩

/-- A character other than the dotted capital I has a small form of one character. -/
theorem exists_lowerAfter_cons {c : Char} (hdotted : c ≠ 'İ') (before cs : List Char) :
    ∃ d, lowerAfter before (c :: cs) = d :: lowerAfter (c :: before) cs := by
  have hcode : c.toNat ≠ 0x130 := fun h => hdotted (Char.toNat_inj.1 h)
  rw [lowerAfter]
  split
  · exact ⟨_, rfl⟩
  · rw [lowerChar]
    split
    · exact ⟨_, rfl⟩
    · exact ⟨_, rfl⟩

/-- Whatever a character means in a pattern, it matches itself. -/
theorem Matches.cons {pattern text : List Char} (h : Matches pattern text) (c : Char) :
    Matches (c :: pattern) (c :: text) := by
  by_cases hrun : c = '%'
  · subst hrun
    exact .run ['%'] h
  · by_cases hone : c = '_'
    · subst hone
      exact .one '_' h
    · exact .self hrun hone h

theorem Matches.append {pattern text : List Char} (h : Matches pattern text) (cs : List Char) :
    Matches (cs ++ pattern) (cs ++ text) := by
  induction cs with
  | nil => exact h
  | cons c rest ih => exact ih.cons c

/-- The small form of the text matches the small form of the pattern, whatever stands before. -/
theorem matches_parts {parts : List Part} (hdotted : .one 'İ' ∉ parts) {before prior : List Char}
    (hsigma : SigmasAlike before prior parts) :
    Matches (lowerAfter prior (patternOf parts)) (lowerAfter before (textOf parts)) := by
  induction parts generalizing before prior with
  | nil => exact .nil
  | cons part rest ih =>
    have hrest := ih (fun hmem => hdotted (List.mem_cons_of_mem part hmem)) hsigma.tail
    cases part with
    | kept c =>
      have hsame : c = 'Σ' →
          lowerSigma before (textOf rest) = lowerSigma prior (patternOf rest) := by
        rintro rfl
        exact hsigma 0 (Nat.succ_pos _) rfl
      change Matches (lowerAfter prior (c :: patternOf rest)) (lowerAfter before (c :: textOf rest))
      rw [lowerAfter, lowerAfter]
      by_cases hc : c = 'Σ'
      · rw [if_pos hc, if_pos hc, hsame hc]
        exact hrest.append _
      · rw [if_neg hc, if_neg hc]
        exact hrest.append _
    | one c =>
      have hc : c ≠ 'İ' := by
        rintro rfl
        exact hdotted List.mem_cons_self
      obtain ⟨d, hd⟩ := exists_lowerAfter_cons hc before (textOf rest)
      change Matches ('_' :: lowerAfter ('_' :: prior) (patternOf rest))
        (lowerAfter before (c :: textOf rest))
      rw [hd]
      exact .one d hrest
    | run cs =>
      obtain ⟨small, hsmall⟩ := exists_lowerAfter_append before cs (textOf rest)
      change Matches ('%' :: lowerAfter ('%' :: prior) (patternOf rest))
        (lowerAfter before (cs ++ textOf rest))
      rw [hsmall]
      exact .run small hrest

/-- A text is like every pattern made from it, whatever was asked before, if no dotted capital I is
replaced by `_` and every capital sigma that stays has the same small form in both. -/
theorem isLike_of_parts (asked : List (String × String)) (parts : List Part)
    (hdotted : .one 'İ' ∉ parts) (hsigma : SigmasAlike [] [] parts) :
    ((Cache.empty.areLike asked).2.isLike (String.ofList (textOf parts))
      (String.ofList (patternOf parts))).1 = true := by
  rw [(Cache.sound_empty.areLike_snd asked).isLike_fst, isLike, fits_ofPattern]
  simp only [Text.lower, String.toList_ofList]
  exact matches_parts hdotted hsigma

/-- The text is `ΌΔΟΣ İ%x` and the pattern `%ΟΣ%_İ%_`: a sigma at the end of a word and a dotted
capital I stay, and so does a percent sign. -/
theorem isLike_of_parts_word :
    let parts : List Part := [.run ['Ό', 'Δ'], .kept 'Ο', .kept 'Σ', .run [], .one ' ', .kept 'İ',
      .kept '%', .one 'x']
    .one 'İ' ∉ parts ∧ SigmasAlike [] [] parts ∧
      String.ofList (textOf parts) = "ΌΔΟΣ İ%x" ∧ String.ofList (patternOf parts) = "%ΟΣ%_İ%_" ∧
      ((Cache.empty.areLike []).2.isLike (String.ofList (textOf parts))
        (String.ofList (patternOf parts))).1 = true := by
  intro parts
  have hdotted : .one 'İ' ∉ parts := by decide +kernel
  have hsigma : SigmasAlike [] [] parts := by decide +kernel
  exact ⟨hdotted, hsigma, rfl, rfl, isLike_of_parts [] parts hdotted hsigma⟩

/-- Behind a run a sigma no longer ends a word, and a dotted capital I has a small form of two
characters: neither text is like the pattern that is made from it. -/
theorem not_isLike_sigma_dotted :
    let word : List Part := [.run ['Α'], .kept 'Σ']
    let letter : List Part := [.one 'İ']
    String.ofList (textOf word) = "ΑΣ" ∧ String.ofList (patternOf word) = "%Σ" ∧
      (Cache.empty.isLike "ΑΣ" "%Σ").1 = false ∧
      String.ofList (textOf letter) = "İ" ∧ String.ofList (patternOf letter) = "_" ∧
      (Cache.empty.isLike "İ" "_").1 = false := by
  decide +kernel

end SqlEngine.Pattern
