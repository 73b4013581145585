import SqlEngine.Proofs.Script.Stripping
import SqlEngine.Proofs.Script.Tokens

/-!
# Comments have no meaning

Without its comments a text is cut into tokens of the same kinds in the same order, or it cannot be
cut into tokens either. Names between grave accents are left out, because a script gives these
accents no meaning: a comment sign inside such a name would be taken for a comment.
-/
namespace SqlEngine.Script

open Lexer

section Simulation

variable {blanks : List Char} (hblanks : ∀ c ∈ blanks, Text.isBlank c = true)
include hblanks

/-- A token is read alike, and what follows it goes on without its comments. -/
theorem readKind?_clean {c : Char} (haccent : c ≠ '\x60') (rest : List Char) :
    readKind? c (clean (.afterCode c) rest ++ blanks) =
      (readKind? c rest).map fun (kind, after) => (kind, clean .code after ++ blanks) := by
  by_cases hquote : c = '\'' ∨ c = '"'
  · have hstring : (decide (c = '\'') || decide (c = '"')) = true := by
      simpa using hquote
    rw [readKind?_eq, readKind?_eq, if_pos hstring, if_pos hstring, (of_quote hquote).2.2,
      readString?_clean hblanks hquote]
    cases readString? c rest <;> rfl
  · have hstring : ¬ (decide (c = '\'') || decide (c = '"')) = true := by
      simpa using hquote
    have hmode : Mode.afterCode c = .code := if_neg hstring
    rw [readKind?_eq, readKind?_eq, if_neg hstring, if_neg hstring, if_neg haccent,
      if_neg haccent, hmode]
    by_cases hdigit : c.isDigit = true
    · have hnumber := readNumber_clean hblanks (c :: rest)
      rw [(isPlain_of_isDigit hdigit).clean, List.cons_append] at hnumber
      rw [if_pos hdigit, if_pos hdigit, hnumber]
      cases Number.ofChars? (readNumber (c :: rest)).1 <;> rfl
    · rw [if_neg hdigit, if_neg hdigit]
      by_cases hword : Text.startsWord c = true
      · obtain ⟨htake, hdrop⟩ := span_clean hblanks (fun _ => isPlain_of_continuesWord) rest
        rw [if_pos hword, if_pos hword, htake, hdrop]
        rfl
      · rw [if_neg hword, if_neg hword, readMark?_clean hblanks]
        cases readMark? c rest <;> rfl

/-- A text has tokens of the same kinds without its comments. -/
theorem kinds_clean {cs : List Char} (haccent : '\x60' ∉ cs) :
    kinds (clean .code cs ++ blanks) = kinds cs := by
  induction hn : cs.length using Nat.strongRecOn generalizing cs with
  | ind n ih =>
    have hgap := skipGap_clean hblanks .blanks cs
    cases hskip : skipGap .blanks cs with
    | nil =>
      rw [hskip] at hgap
      rw [kinds_of_skipGap_nil hskip]
      exact kinds_of_skipGap_nil hgap
    | cons c tail =>
      have hnext : skipGap .blanks (clean .code cs ++ blanks) =
          c :: (clean (.afterCode c) tail ++ blanks) := by
        rw [hskip] at hgap
        exact hgap
      have hsuffix : c :: tail <:+ cs := hskip ▸ skipGap_suffix .blanks cs
      have hc : c ≠ '\x60' := by
        rintro rfl
        exact haccent (hsuffix.subset List.mem_cons_self)
      rw [kinds_of_skipGap_cons hskip, kinds_of_skipGap_cons hnext, readKind?_clean hblanks hc]
      cases hread : readKind? c tail with
      | none => rfl
      | some read =>
        have hafter : read.2 <:+ tail := readKind?_suffix hread
        have hlt : read.2.length < n := by
          have hle := hafter.length_le
          have hskip := hsuffix.length_le
          rw [List.length_cons] at hskip
          omega
        have hrest : '\x60' ∉ read.2 := fun hmem =>
          haccent (hsuffix.subset (List.mem_cons_of_mem c (hafter.subset hmem)))
        rw [Option.map_some, Option.bind_some, Option.bind_some]
        dsimp only
        rw [ih _ hlt hrest rfl]

end Simulation

theorem mem_clean {mode : Mode} {cs : List Char} {d : Char} (h : d ∈ clean mode cs) :
    d ∈ cs ∨ d = ' ' := by
  obtain ⟨⟨c, role⟩, hmem, hleft⟩ := List.mem_filterMap.1 h
  have hc : c ∈ cs := by
    rw [← map_fst_scan mode cs]
    exact List.mem_map_of_mem hmem
  cases role with
  | comment => cases hleft
  | commentEnd =>
    cases hleft
    exact .inr rfl
  | code | quoted | terminator =>
    cases hleft
    exact .inl hc

theorem not_mem_stripChars {cs : List Char} {d : Char} (hd : d ≠ ' ') (h : d ∉ cs) :
    d ∉ stripChars cs := by
  intro hmem
  have htrim : stripChars cs <:+: clean .code cs :=
    (List.rdropWhile_prefix _ _).isInfix.trans (List.dropWhile_suffix _).isInfix
  rcases mem_clean (htrim.subset hmem) with hcs | hspace
  · exact h hcs
  · exact hd hspace

theorem kinds_stripChars {cs : List Char} (haccent : '\x60' ∉ cs) :
    kinds (stripChars cs) = kinds cs := by
  obtain ⟨before, hbefore, hleft⟩ := Text.trimLeft_decompose (clean .code cs)
  obtain ⟨behind, hbehind, hright⟩ := Text.trimRight_decompose (Text.trimLeft (clean .code cs))
  have hfree : clean .code (stripChars cs) = stripChars cs :=
    clean_of_commentFree (commentFree_trimChars (commentFree_clean .code cs))
  calc kinds (stripChars cs)
    _ = kinds (clean .code (stripChars cs) ++ behind) :=
      (kinds_clean hbehind (not_mem_stripChars (by decide) haccent)).symm
    _ = kinds (stripChars cs ++ behind) := by rw [hfree]
    _ = kinds (Text.trimLeft (clean .code cs)) := congrArg kinds hright.symm
    _ = kinds (before ++ Text.trimLeft (clean .code cs)) :=
      kinds_congr (skipGap_blanks_append hbefore _).symm
    _ = kinds (clean .code cs ++ []) := by rw [← hleft, List.append_nil]
    _ = kinds cs := kinds_clean (by simp) haccent

/-- Stripping a statement of its comments keeps the kinds of its tokens in their order, or its being
no sequence of tokens; and nothing is left to strip. -/
theorem tokens_stripComments (s : String) (haccent : '\x60' ∉ s.toList) :
    kindsOf (tokens (stripComments s)) = kindsOf (tokens s) ∧
      stripComments (stripComments s) = stripComments s := by
  have hchars : (stripComments s).toList = stripChars s.toList := String.toList_ofList
  constructor
  · change kinds (stripComments s).toList = kinds s.toList
    rw [hchars]
    exact kinds_stripChars haccent
  · rw [stripComments, hchars, stripChars_stripChars]
    rfl

/-- Comments stand between two names, in a string, behind an unfinished exponent and at the end. -/
theorem tokens_stripComments_mixed :
    '\x60' ∉ "SELECT a/**/b, '--', 1e--5\nFROM t /* x".toList ∧
      kindsOf (tokens (stripComments "SELECT a/**/b, '--', 1e--5\nFROM t /* x")) =
        kindsOf (tokens "SELECT a/**/b, '--', 1e--5\nFROM t /* x") ∧
      stripComments (stripComments "SELECT a/**/b, '--', 1e--5\nFROM t /* x") =
        stripComments "SELECT a/**/b, '--', 1e--5\nFROM t /* x" := by
  have haccent : '\x60' ∉ "SELECT a/**/b, '--', 1e--5\nFROM t /* x".toList := by
    decide +kernel
  exact ⟨haccent, tokens_stripComments _ haccent⟩

end SqlEngine.Script
