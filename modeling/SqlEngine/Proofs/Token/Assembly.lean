import SqlEngine.Proofs.Script.Passage
import SqlEngine.Proofs.Token.Cuts
import SqlEngine.Proofs.Token.Literal

/-!
# Texts put together from tokens

A text that is written token by token is cut into these tokens again. Of a token only its kind and
its characters count here, so that nothing is said of places.
-/
namespace SqlEngine.Lexer

open Script

/-- The kinds of some tokens, each with the characters that it was read from. -/
def writing (tokens : List Token) : List (TokenKind × List Char) :=
  tokens.map fun token => (token.kind, token.lexeme)

theorem writing_eq_cons {tokens : List Token} {kind : TokenKind} {lexeme : List Char}
    {written : List (TokenKind × List Char)} (h : writing tokens = (kind, lexeme) :: written) :
    ∃ token rest, tokens = token :: rest ∧ token.kind = kind ∧ token.lexeme = lexeme ∧
      writing rest = written := by
  obtain ⟨token, rest, rfl, hfirst, hrest⟩ := List.map_eq_cons_iff.1 h
  obtain ⟨hkind, hlexeme⟩ := Prod.mk.inj hfirst
  exact ⟨token, rest, rfl, hkind, hlexeme, hrest⟩

/-- The text is cut into tokens of these kinds with these characters, wherever it begins. -/
def Lexes (cs : List Char) (written : List (TokenKind × List Char)) : Prop :=
  ∀ place, ∃ tokens, Cuts place cs tokens ∧ writing tokens = written

theorem readToken_of_readKind? {c : Char} {rest after : List Char} {kind : TokenKind}
    (h : readKind? c rest = some (kind, after)) (place : Position) :
    readToken place c rest = .ok (kind, after) := by
  rw [← toOption_readToken place] at h
  cases hread : readToken place c rest with
  | error fault =>
    rw [hread] at h
    cases h
  | ok read =>
    rw [hread] at h
    cases h
    rfl

namespace Lexes

variable {cs rest after lexeme : List Char} {c : Char} {kind : TokenKind}
  {written : List (TokenKind × List Char)}

theorem nil : Lexes [] [] := fun _ => ⟨[], .none rfl, rfl⟩

/-- White space may stand in front of any token. -/
theorem blank (hc : Text.isBlank c = true) (h : Lexes cs written) : Lexes (c :: cs) written := by
  intro place
  obtain ⟨tokens, hcuts, hwritten⟩ := h (place.step c)
  have hskip : skipGap .blanks (c :: cs) = skipGap .blanks cs := skipGap_blank hc
  cases hcuts with
  | none hgap => exact ⟨[], .none (hskip.trans hgap), hwritten⟩
  | @token _ _ gap tail lexeme after d kind tokens hgap hcs hread hlexeme hrest =>
    refine ⟨⟨kind, c :: gap, lexeme, place.advance (c :: gap)⟩ :: tokens, ?_, hwritten⟩
    exact .token (hskip.trans hgap) (congrArg (c :: ·) hcs) hread hlexeme hrest

theorem token (hblank : Text.isBlank c = false) (hopens : ¬ OpensComment c rest)
    (hread : readKind? c rest = some (kind, after)) (hlexeme : c :: rest = lexeme ++ after)
    (h : Lexes after written) : Lexes (c :: rest) ((kind, lexeme) :: written) := by
  intro place
  obtain ⟨tokens, hcuts, hwritten⟩ := h (place.advance lexeme)
  have hgap : skipGap .blanks (c :: rest) = c :: rest := by
    rw [skipGap_cons hopens, if_neg (by simp [hblank])]
  have hfirst : Cuts place (c :: rest) (⟨kind, [], lexeme, place.advance []⟩ :: tokens) :=
    .token hgap rfl (readToken_of_readKind? hread _) hlexeme hcuts
  exact ⟨_, hfirst, congrArg ((kind, lexeme) :: ·) hwritten⟩

theorem leftParen (h : Lexes rest written) :
    Lexes ('(' :: rest) ((.mark .leftParen, ['(']) :: written) :=
  token (by decide) (not_opensComment_of_ne (by decide) (by decide)) rfl rfl h

theorem rightParen (h : Lexes rest written) :
    Lexes (')' :: rest) ((.mark .rightParen, [')']) :: written) :=
  token (by decide) (not_opensComment_of_ne (by decide) (by decide)) rfl rfl h

/-- The text as a whole is cut into the tokens it is written with. -/
theorem tokens_eq_ok (h : Lexes cs written) :
    ∃ list, tokens (String.ofList cs) = .ok list ∧ writing list.tokens = written := by
  obtain ⟨tokens', hcuts, hwritten⟩ := h .start
  obtain ⟨list, hlist, rfl⟩ := cuts_iff.1 hcuts
  refine ⟨list, ?_, hwritten⟩
  rw [tokens, String.toList_ofList]
  exact hlist

end Lexes

/-- The text is one word: a letter or an underscore, and behind it only characters of words. -/
def IsWord (word : List Char) : Prop :=
  word.head?.any Text.startsWord = true ∧ word.all Text.continuesWord = true

instance (word : List Char) : Decidable (IsWord word) := inferInstanceAs (Decidable (_ ∧ _))

theorem IsWord.ordinary {word : List Char} (h : IsWord word) : ∀ c ∈ word, Ordinary c :=
  fun c hc => ordinary_of_continuesWord (List.all_eq_true.1 h.2 c hc)

theorem not_isDigit_of_startsWord {c : Char} (h : Text.startsWord c = true) :
    c.isDigit = false := by
  have htable : ∀ code ∈ List.range' 48 10, Text.startsWord (Char.ofNat code) = false := by
    decide +kernel
  by_contra hdigit
  have hrange : 48 ≤ c.toNat ∧ c.toNat ≤ 57 := by
    simpa [Char.isDigit, UInt32.le_iff_toNat_le] using hdigit
  have hcode : c.toNat ∈ List.range' 48 10 := by
    rw [List.mem_range'_1]
    omega
  have hstart := htable c.toNat hcode
  rw [Char.ofNat_toNat, h] at hstart
  cases hstart

/-- What begins like a word is read as one. -/
theorem readKind?_of_startsWord {c : Char} (h : Text.startsWord c = true) (rest : List Char) :
    readKind? c rest = some (wordKind (c :: rest.takeWhile Text.continuesWord),
      rest.dropWhile Text.continuesWord) := by
  obtain ⟨-, -, -, hsingle, hdouble⟩ :=
    isPlain_of_continuesWord (Text.continuesWord_of_startsWord h)
  have haccent : c ≠ '\x60' := by
    rintro rfl
    revert h
    decide +kernel
  rw [readKind?_eq, if_neg (by simp [hsingle, hdouble]), if_neg haccent,
    if_neg (by simp [not_isDigit_of_startsWord h]), if_pos h]

/-- A word ends where no character of words follows. -/
theorem Lexes.wordBefore {word rest : List Char} {written : List (TokenKind × List Char)}
    (hword : IsWord word) (hend : ∀ d ∈ rest.head?, Text.continuesWord d = false)
    (h : Lexes rest written) : Lexes (word ++ rest) ((wordKind word, word) :: written) := by
  obtain ⟨hhead, hall⟩ := hword
  rw [List.all_eq_true] at hall
  cases word with
  | nil => cases hhead
  | cons c letters =>
    have hc : Text.startsWord c = true := hhead
    have hletters : ∀ e ∈ letters, Text.continuesWord e = true :=
      fun e he => hall e (List.mem_cons_of_mem c he)
    obtain ⟨hblank, hminus, hslash, -, -⟩ := isPlain_of_continuesWord (hall c List.mem_cons_self)
    have hnone : rest.takeWhile Text.continuesWord = [] ∧
        rest.dropWhile Text.continuesWord = rest := by
      cases rest with
      | nil => exact ⟨rfl, rfl⟩
      | cons d behind => simp [hend d rfl]
    have hread := readKind?_of_startsWord hc (letters ++ rest)
    rw [List.takeWhile_append_of_pos hletters, List.dropWhile_append_of_pos hletters, hnone.1,
      hnone.2, List.append_nil] at hread
    exact token hblank (not_opensComment_of_ne hminus hslash) hread rfl h

theorem Lexes.word {word rest : List Char} {d : Char} {written : List (TokenKind × List Char)}
    (hword : IsWord word) (hd : Text.continuesWord d = false) (h : Lexes (d :: rest) written) :
    Lexes (word ++ d :: rest) ((wordKind word, word) :: written) := by
  refine .wordBefore hword ?_ h
  rintro e ⟨⟩
  exact hd

/-- A word may be the last token of a text. -/
theorem Lexes.lastWord {word : List Char} (hword : IsWord word) :
    Lexes word [(wordKind word, word)] := by
  have hend := Lexes.wordBefore hword (by rintro d ⟨⟩) .nil
  rwa [List.append_nil] at hend

/-- A text literal ends at the quote that is not doubled. -/
theorem Lexes.literal {text after : List Char} {written : List (TokenKind × List Char)}
    (htext : Paired text) (hafter : after.head? ≠ some '\'') (h : Lexes after written) :
    Lexes ('\'' :: (doubleQuotes text ++ '\'' :: after))
      ((.string '\'' (String.ofList text), '\'' :: doubleQuotes text ++ ['\'']) :: written) := by
  have hread : readKind? '\'' (doubleQuotes text ++ '\'' :: after) =
      some (.string '\'' (String.ofList text), after) := by
    rw [readKind?_eq, if_pos (by decide), readString?_doubleQuotes htext hafter]
    rfl
  exact token (by decide) (not_opensComment_of_quote (.inl rfl)) hread (by simp) h

end SqlEngine.Lexer
