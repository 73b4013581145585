import SqlEngine.Token.Lexer

/-!
# Kinds of tokens without their places

Where a text begins decides the places of its tokens and nothing else. The kinds of the tokens are
described here by an equation that skips a gap, reads one token and goes on with what is left.
-/
namespace SqlEngine.Lexer

/-- The kinds of the tokens of a text, or `none` if it cannot be cut into tokens. -/
def kindsOf (outcome : Except LexFault TokenList) : Option (List TokenKind) :=
  outcome.toOption.map fun list => list.tokens.map (·.kind)

/-- The kinds of the tokens of some characters. -/
def kinds (cs : List Char) : Option (List TokenKind) := kindsOf (tokensFrom .start cs)

/-- The kind of the token that begins with `c`, and the characters after it. -/
def readKind? (c : Char) (rest : List Char) : Option (TokenKind × List Char) :=
  (readToken .start c rest).toOption

theorem toOption_readToken (place : Position) (c : Char) (rest : List Char) :
    (readToken place c rest).toOption = readKind? c rest := by
  simp only [readKind?, readToken]
  split
  · split <;> rfl
  · split
    · split <;> rfl
    · split
      · rfl
      · split
        · rfl
        · split <;> rfl

/-- A token is read by its first character: a string, a name, a number, a word or a mark. -/
theorem readKind?_eq (c : Char) (rest : List Char) :
    readKind? c rest =
      if c = '\'' || c = '"' then
        (readString? c rest).map fun (content, after) => (.string c (String.ofList content), after)
      else if c = '\x60' then
        (readQuotedName? rest).map fun (name, after) => (.identifier (String.ofList name), after)
      else if c.isDigit then
        (Number.ofChars? (readNumber (c :: rest)).1).map fun x =>
          (.number x, (readNumber (c :: rest)).2)
      else if Text.startsWord c then
        some (wordKind (c :: rest.takeWhile Text.continuesWord),
          rest.dropWhile Text.continuesWord)
      else (readMark? c rest).map fun (mark, after) => (.mark mark, after) := by
  rw [readKind?, readToken]
  split
  · cases readString? c rest <;> rfl
  · split
    · cases readQuotedName? rest <;> rfl
    · split
      · dsimp only
        cases Number.ofChars? (readNumber (c :: rest)).1 <;> rfl
      · split
        · rfl
        · cases readMark? c rest <;> rfl

/-- What a token that was read can be. -/
theorem readKind?_cases {c : Char} {rest after : List Char} {kind : TokenKind}
    (h : readKind? c rest = some (kind, after)) :
    (∃ content, (c = '\'' ∨ c = '"') ∧ readString? c rest = some (content, after) ∧
      kind = .string c (String.ofList content)) ∨
    (∃ name, c = '\x60' ∧ readQuotedName? rest = some (name, after) ∧
      kind = .identifier (String.ofList name)) ∨
    (∃ x, c.isDigit = true ∧ Number.ofChars? (readNumber (c :: rest)).1 = some x ∧
      kind = .number x ∧ after = (readNumber (c :: rest)).2) ∨
    (Text.startsWord c = true ∧ kind = wordKind (c :: rest.takeWhile Text.continuesWord) ∧
      after = rest.dropWhile Text.continuesWord) ∨
    ∃ mark, ¬ (c = '\'' ∨ c = '"') ∧ readMark? c rest = some (mark, after) ∧ kind = .mark mark := by
  rw [readKind?_eq] at h
  split at h
  · next hquote =>
    obtain ⟨⟨content, after⟩, hread, heq⟩ := Option.map_eq_some_iff.1 h
    cases heq
    exact .inl ⟨content, by simpa using hquote, hread, rfl⟩
  · next hquote =>
    split at h
    · next haccent =>
      obtain ⟨⟨name, after⟩, hread, heq⟩ := Option.map_eq_some_iff.1 h
      cases heq
      exact .inr (.inl ⟨name, haccent, hread, rfl⟩)
    · split at h
      · next hdigit =>
        obtain ⟨x, hread, heq⟩ := Option.map_eq_some_iff.1 h
        cases heq
        exact .inr (.inr (.inl ⟨x, hdigit, hread, rfl, rfl⟩))
      · split at h
        · next hword =>
          cases h
          exact .inr (.inr (.inr (.inl ⟨hword, rfl, rfl⟩)))
        · obtain ⟨⟨mark, after⟩, hread, heq⟩ := Option.map_eq_some_iff.1 h
          cases heq
          exact .inr (.inr (.inr (.inr ⟨mark, by simpa using hquote, hread, rfl⟩)))

theorem readKind?_suffix {c : Char} {rest after : List Char} {kind : TokenKind}
    (h : readKind? c rest = some (kind, after)) : after <:+ rest := by
  rw [readKind?] at h
  cases hread : readToken .start c rest with
  | error fault =>
    rw [hread] at h
    cases h
  | ok read =>
    rw [hread] at h
    cases h
    exact readToken_suffix hread

theorem kindsOf_tokensFrom_nil {place : Position} {cs : List Char}
    (h : skipGap .blanks cs = []) : kindsOf (tokensFrom place cs) = some [] := by
  rw [tokensFrom]
  dsimp only
  split
  · rfl
  · next c tail heq =>
    rw [h] at heq
    cases heq

theorem kindsOf_tokensFrom_cons {cs : List Char} {c : Char} {tail : List Char}
    (place : Position) (h : skipGap .blanks cs = c :: tail) :
    ∃ next : List Char → Position, kindsOf (tokensFrom place cs) =
      (readKind? c tail).bind fun read =>
        (kindsOf (tokensFrom (next read.2) read.2)).map (read.1 :: ·) := by
  let rest := skipGap .blanks cs
  refine ⟨fun after => (place.advance (cs.take (cs.length - rest.length))).advance
    (rest.take (rest.length - after.length)), ?_⟩
  rw [tokensFrom]
  dsimp only
  split
  · next heq =>
    rw [h] at heq
    cases heq
  · next c' tail' heq =>
    rw [h] at heq
    cases heq
    split
    · next fault hread =>
      rw [← toOption_readToken _ c tail, hread]
      rfl
    · next kind after hread =>
      rw [← toOption_readToken _ c tail, hread]
      simp only [Except.toOption, Option.bind_some, rest]
      generalize tokensFrom _ after = outcome
      cases outcome <;> rfl

/-- The kinds of tokens do not depend on the place at which the text begins. -/
theorem kindsOf_tokensFrom (place : Position) (cs : List Char) :
    kindsOf (tokensFrom place cs) = kinds cs := by
  induction hn : cs.length using Nat.strongRecOn generalizing place cs with
  | ind n ih =>
    rw [kinds]
    cases hgap : skipGap .blanks cs with
    | nil => rw [kindsOf_tokensFrom_nil hgap, kindsOf_tokensFrom_nil hgap]
    | cons c tail =>
      obtain ⟨next, hnext⟩ := kindsOf_tokensFrom_cons place hgap
      obtain ⟨first, hfirst⟩ := kindsOf_tokensFrom_cons .start hgap
      rw [hnext, hfirst]
      cases hread : readKind? c tail with
      | none => rfl
      | some read =>
        have hlt : read.2.length < n := by
          have hle := (readKind?_suffix hread).length_le
          have hskip := (skipGap_suffix .blanks cs).length_le
          rw [hgap, List.length_cons] at hskip
          omega
        rw [Option.bind_some, Option.bind_some, ih _ hlt (next read.2) read.2 rfl,
          ih _ hlt (first read.2) read.2 rfl]

theorem kinds_of_skipGap_nil {cs : List Char} (h : skipGap .blanks cs = []) : kinds cs = some [] :=
  kindsOf_tokensFrom_nil h

/-- The first token of a text is read behind the gap, and the other ones behind the first. -/
theorem kinds_of_skipGap_cons {cs : List Char} {c : Char} {tail : List Char}
    (h : skipGap .blanks cs = c :: tail) :
    kinds cs = (readKind? c tail).bind fun read => (kinds read.2).map (read.1 :: ·) := by
  obtain ⟨next, hnext⟩ := kindsOf_tokensFrom_cons .start h
  simp only [kindsOf_tokensFrom] at hnext
  exact hnext

/-- The kinds of the tokens depend on what lies behind the first gap only. -/
theorem kinds_congr {cs ds : List Char} (h : skipGap .blanks cs = skipGap .blanks ds) :
    kinds cs = kinds ds := by
  cases hgap : skipGap .blanks ds with
  | nil => rw [kinds_of_skipGap_nil (h.trans hgap), kinds_of_skipGap_nil hgap]
  | cons c tail => rw [kinds_of_skipGap_cons (h.trans hgap), kinds_of_skipGap_cons hgap]

end SqlEngine.Lexer
