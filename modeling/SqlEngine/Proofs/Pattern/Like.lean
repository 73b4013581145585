import SqlEngine.Pattern.Cache
import SqlEngine.Proofs.Pattern.Matching

/-!
# One rule for every form of pattern

Patterns are matched in five forms, of which four look at the text directly and one goes through it
segment by segment. Each of them finds what the rule of LIKE says, and so does a form that is
remembered, for whatever has been asked before.
-/
namespace SqlEngine

namespace Pattern

variable {cs text : List Char}

section Forms

theorem plain_of_not_mem (hone : '_' ∉ cs) (hrun : '%' ∉ cs) : Plain cs := fun _ hc =>
  ⟨fun heq => hrun (heq ▸ hc), fun heq => hone (heq ▸ hc)⟩

/-- A pattern without wildcards is the text. -/
theorem matches_plain (hplain : Plain cs) : Matches cs text ↔ text = cs := by
  have h : Matches (cs ++ []) text ↔ _ := matches_append hplain
  rw [List.append_nil] at h
  rw [h]
  constructor
  · rintro ⟨rest, rfl, hrest⟩
    rw [matches_nil.1 hrest, List.append_nil]
  · rintro rfl
    exact ⟨[], (List.append_nil _).symm, .nil⟩

/-- A run matches whatever is left. -/
theorem matches_run_nil (text : List Char) : Matches ['%'] text :=
  matches_run.2 ⟨[], List.nil_suffix, .nil⟩

theorem matches_front (hplain : Plain cs) : Matches (cs ++ ['%']) text ↔ cs <+: text := by
  rw [matches_append hplain]
  constructor
  · rintro ⟨rest, rfl, -⟩
    exact List.prefix_append cs rest
  · rintro ⟨rest, rfl⟩
    exact ⟨rest, rfl, matches_run_nil rest⟩

theorem matches_back (hplain : Plain cs) : Matches ('%' :: cs) text ↔ cs <:+ text := by
  rw [matches_run]
  constructor
  · rintro ⟨rest, hsuffix, h⟩
    exact (matches_plain hplain).1 h ▸ hsuffix
  · exact fun hsuffix => ⟨cs, hsuffix, (matches_plain hplain).2 rfl⟩

theorem matches_inside (hplain : Plain cs) :
    Matches ('%' :: (cs ++ ['%'])) text ↔ ∃ rest, rest <:+ text ∧ cs <+: rest := by
  rw [matches_run]
  exact exists_congr fun rest => and_congr_right fun _ => matches_front hplain

theorem occurs_iff : occurs cs text = true ↔ ∃ rest, rest <:+ text ∧ cs <+: rest := by
  induction text with
  | nil =>
    rw [occurs, List.isEmpty_iff]
    constructor
    · rintro rfl
      exact ⟨[], List.suffix_refl _, List.prefix_refl _⟩
    · rintro ⟨rest, hsuffix, hfront⟩
      rw [List.suffix_nil.1 hsuffix] at hfront
      exact List.prefix_nil.1 hfront
  | cons c text ih =>
    rw [occurs, Bool.or_eq_true, List.isPrefixOf_iff_prefix, ih]
    constructor
    · rintro (hfront | ⟨rest, hsuffix, hfront⟩)
      · exact ⟨_, List.suffix_refl _, hfront⟩
      · exact ⟨rest, hsuffix.trans (List.suffix_cons ..), hfront⟩
    · rintro ⟨rest, hsuffix, hfront⟩
      rcases List.suffix_cons_iff.1 hsuffix with rfl | hsuffix
      · exact .inl hfront
      · exact .inr ⟨rest, hsuffix, hfront⟩

theorem fits_general : (Form.general (segmentsFrom [] cs)).fits text = true ↔ Matches cs text := by
  have hproper : Proper (segmentsFrom [] cs) :=
    proper_segmentsFrom (fun c hc => absurd hc List.not_mem_nil) cs
  rw [Form.fits, matchSegments_iff hproper, Fits, written_segmentsFrom, List.nil_append]

/-- A text has the form of a pattern if it matches the pattern. -/
theorem fits_ofChars (cs text : List Char) :
    (Form.ofChars cs).fits text = true ↔ Matches cs text := by
  rw [Form.ofChars]
  split
  · exact fits_general
  · next hone =>
    have hone : '_' ∉ cs := fun hmem => hone (List.contains_iff_mem.2 hmem)
    split
    · next hcount =>
      have hplain := plain_of_not_mem hone (List.count_eq_zero.1 hcount)
      rw [Form.fits, beq_iff_eq, matches_plain hplain]
    · next hcount =>
      split
      · next hlast =>
        obtain ⟨front, rfl⟩ := List.getLast?_eq_some_iff.1 hlast
        rw [List.mem_append] at hone
        have hplain : Plain front :=
          plain_of_not_mem (fun hmem => hone (.inl hmem))
            (List.count_eq_zero.1 (by simpa using hcount))
        rw [List.dropLast_concat, Form.fits, List.isPrefixOf_iff_prefix, matches_front hplain]
      · split
        · next hhead =>
          obtain ⟨back, rfl⟩ := List.head?_eq_some_iff.1 hhead
          have hplain : Plain back :=
            plain_of_not_mem (fun hmem => hone (.tail _ hmem))
              (List.count_eq_zero.1 (by simpa using hcount))
          rw [List.tail_cons, Form.fits, List.isSuffixOf_iff_suffix, matches_back hplain]
        · exact fits_general
    · next hcount =>
      split
      · next hends =>
        simp only [Bool.and_eq_true, decide_eq_true_eq] at hends
        obtain ⟨⟨hlength, hhead⟩, hlast⟩ := hends
        obtain ⟨back, rfl⟩ := List.head?_eq_some_iff.1 hhead
        obtain ⟨front, heq⟩ := List.getLast?_eq_some_iff.1 hlast
        cases front with
        | nil =>
          cases heq
          simp at hlength
        | cons c inner =>
          rw [List.cons_append] at heq
          obtain ⟨-, rfl⟩ := List.cons_eq_cons.1 heq
          have hplain : Plain inner :=
            plain_of_not_mem (fun hmem => hone (.tail _ (List.mem_append_left _ hmem)))
              (List.count_eq_zero.1 (by simpa using hcount))
          rw [List.tail_cons, List.dropLast_concat, Form.fits, matches_inside hplain]
          exact occurs_iff
      · exact fits_general
    · exact fits_general

end Forms

theorem fits_ofPattern (text pattern : String) :
    (Form.ofPattern pattern).fits (Text.lower text).toList = true ↔
      Matches (Text.lower pattern).toList (Text.lower text).toList :=
  fits_ofChars _ _

namespace Cache

/-- A cache that remembers each pattern with its own form, and not too many. -/
structure Sound (cache : Cache) : Prop where
  form : ∀ entry ∈ cache.entries, entry.2 = Form.ofPattern entry.1
  bounded : cache.entries.length ≤ cacheLimit

theorem sound_empty : empty.Sound := ⟨fun _ h => absurd h List.not_mem_nil, Nat.zero_le _⟩

theorem Sound.find? {cache : Cache} (h : cache.Sound) {pattern : String} {form : Form}
    (hfind : cache.find? pattern = some form) : form = Form.ofPattern pattern := by
  obtain ⟨entry, hentry, rfl⟩ := Option.map_eq_some_iff.1 hfind
  have hkey := List.find?_some hentry
  rw [h.form entry (List.mem_of_find?_eq_some hentry), beq_iff_eq.1 hkey]

theorem Sound.add {cache : Cache} (h : cache.Sound) (pattern : String) :
    (cache.add pattern (Form.ofPattern pattern)).Sound := by
  rw [Cache.add]
  split
  · next hroom =>
    refine ⟨List.forall_mem_cons.2 ⟨?_, h.form⟩, hroom⟩
    dsimp only
  · exact h

/-- A remembered form answers as a new one would. -/
theorem Sound.isLike_fst {cache : Cache} (h : cache.Sound) (text pattern : String) :
    (cache.isLike text pattern).1 = SqlEngine.isLike text pattern := by
  rw [isLike, SqlEngine.isLike]
  split
  · next form hfind => rw [h.find? hfind]
  · dsimp only

theorem Sound.isLike_snd {cache : Cache} (h : cache.Sound) (text pattern : String) :
    (cache.isLike text pattern).2.Sound := by
  rw [isLike]
  split
  · exact h
  · exact h.add pattern

/-- The cache stays sound over any number of questions. -/
theorem Sound.areLike_snd {cache : Cache} (h : cache.Sound) (asked : List (String × String)) :
    (cache.areLike asked).2.Sound := by
  induction asked generalizing cache with
  | nil => exact h
  | cons first rest ih => exact ih (h.isLike_snd first.1 first.2)

end Cache

/-- A text is found to be like a pattern exactly if its small form matches that of the pattern,
whatever was asked before. -/
theorem isLike_iff_matches (asked : List (String × String)) (text pattern : String) :
    (((Cache.empty.areLike asked).2.isLike text pattern).1 = true ↔
      Matches (Text.lower pattern).toList (Text.lower text).toList) ∧
    (SqlEngine.isLike text pattern = true ↔
      Matches (Text.lower pattern).toList (Text.lower text).toList) := by
  have hsound := Cache.sound_empty.areLike_snd asked
  rw [hsound.isLike_fst text pattern]
  exact ⟨fits_ofPattern text pattern, fits_ofPattern text pattern⟩

example : SqlEngine.isLike "abcBCxd" "%bc_D" = true ∧
    SqlEngine.isLike "abcbcd" "%bc_d" = false := by
  decide +kernel

end Pattern
end SqlEngine
