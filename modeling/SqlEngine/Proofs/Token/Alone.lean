import SqlEngine.Proofs.Script.Passage
import SqlEngine.Proofs.Token.Assembly
import SqlEngine.Proofs.Token.Gaps

/-!
# A token alone

How far a token goes is decided by its own characters: what stands behind them has no part in it, so
that they are read as the same token when nothing follows. The closing quote of a string, the power
of an exponent and the second half of a mark are looked for ahead, and here it is shown that the end
of the text is as good a limit as any other.
-/
namespace SqlEngine.Lexer

open Script

theorem readString?_alone {quote : Char} {cs content after : List Char}
    (h : readString? quote cs = some (content, after)) :
    ∃ front, cs = front ++ after ∧ readString? quote front = some (content, []) := by
  fun_induction readString? quote cs generalizing content after with
  | case1 | case3 => cases h
  | case2 =>
    cases h
    exact ⟨[quote], rfl, readString?_close (by simp)⟩
  | case4 rest ih =>
    obtain ⟨⟨content, after⟩, hread, heq⟩ := Option.map_eq_some_iff.1 h
    cases heq
    obtain ⟨front, rfl, hfront⟩ := ih hread
    refine ⟨quote :: quote :: front, rfl, ?_⟩
    rw [readString?, if_pos rfl, if_pos rfl, hfront]
    rfl
  | case5 d rest hd =>
    cases h
    exact ⟨[quote], rfl, readString?_close (by simp)⟩
  | case6 d rest hquote ih =>
    obtain ⟨⟨content, after⟩, hread, heq⟩ := Option.map_eq_some_iff.1 h
    cases heq
    obtain ⟨front, rfl, hfront⟩ := ih hread
    refine ⟨'\\' :: d :: front, rfl, ?_⟩
    rw [readString?, if_neg hquote, if_pos rfl, hfront]
    rfl
  | case7 c d rest hquote hpair ih =>
    obtain ⟨⟨content, after⟩, hread, heq⟩ := Option.map_eq_some_iff.1 h
    cases heq
    obtain ⟨front, hcons, hfront⟩ := ih hread
    refine ⟨c :: front, congrArg (c :: ·) hcons, ?_⟩
    rw [readString?_cons hquote hpair, hfront]
    rfl

theorem readQuotedName?_alone {cs name after : List Char}
    (h : readQuotedName? cs = some (name, after)) :
    ∃ front, cs = front ++ after ∧ readQuotedName? front = some (name, []) := by
  fun_induction readQuotedName? cs generalizing name after with
  | case1 => cases h
  | case2 =>
    cases h
    exact ⟨['\x60'], rfl, rfl⟩
  | case3 c rest hc ih =>
    obtain ⟨⟨name, after⟩, hread, heq⟩ := Option.map_eq_some_iff.1 h
    cases heq
    obtain ⟨front, rfl, hfront⟩ := ih hread
    refine ⟨c :: front, rfl, ?_⟩
    rw [readQuotedName?, if_neg hc, hfront]
    rfl

/-- What a run of characters consists of is a run to its end. -/
theorem span_takeWhile {α : Type} (p : α → Bool) (xs : List α) :
    (xs.takeWhile p).takeWhile p = xs.takeWhile p ∧ (xs.takeWhile p).dropWhile p = [] :=
  ⟨List.takeWhile_eq_self_iff.2 fun _ => List.mem_takeWhile_imp,
    List.dropWhile_eq_nil_iff.2 fun _ => List.mem_takeWhile_imp⟩

theorem readSign_append_snd (cs : List Char) : (readSign cs).1 ++ (readSign cs).2 = cs := by
  cases cs with
  | nil => rfl
  | cons c rest =>
    rw [readSign]
    split
    · rfl
    · rfl

theorem readSign_digits {power : List Char} (hpower : ∀ c ∈ power, c.isDigit = true)
    (cs : List Char) : readSign ((readSign cs).1 ++ power) = ((readSign cs).1, power) := by
  have hhead : ∀ sign : Char, sign.isDigit = false → power.head? ≠ some sign := by
    intro sign hsign hmem
    rw [hpower sign (List.mem_of_head? hmem)] at hsign
    cases hsign
  have hbare : readSign power = ([], power) :=
    readSign_of_head (hhead '+' (by decide)) (hhead '-' (by decide))
  cases cs with
  | nil => exact hbare
  | cons c rest =>
    by_cases hc : (decide (c = '+') || decide (c = '-')) = true
    · rw [readSign, if_pos hc, List.singleton_append, readSign, if_pos hc]
    · rw [readSign, if_neg hc]
      exact hbare

/-- An exponent is read in the same way where nothing follows it, and so is a missing one. -/
theorem readExponent_alone (cs : List Char) :
    (readExponent cs).1 ++ (readExponent cs).2 = cs ∧
      readExponent (readExponent cs).1 = ((readExponent cs).1, []) := by
  by_cases hletter : cs.head? = some 'e' ∨ cs.head? = some 'E'
  · obtain ⟨c, rest, hc, rfl⟩ := exists_of_head? hletter
    rw [readExponent_cons hc]
    split
    · exact ⟨rfl, rfl⟩
    · next hpower =>
      obtain ⟨htake, hdrop⟩ := span_takeWhile Char.isDigit (readSign rest).2
      have hsign : readSign ((readSign rest).1 ++ powerOf rest) =
          ((readSign rest).1, powerOf rest) :=
        readSign_digits (fun _ => List.mem_takeWhile_imp) rest
      have hagain : powerOf ((readSign rest).1 ++ powerOf rest) = powerOf rest := by
        rw [powerOf, hsign]
        exact htake
      refine ⟨?_, ?_⟩
      · calc c :: (readSign rest).1 ++ powerOf rest ++ (readSign rest).2.dropWhile Char.isDigit
          _ = c :: ((readSign rest).1 ++ (readSign rest).2) := by
            rw [List.append_assoc, powerOf, List.takeWhile_append_dropWhile]
            rfl
          _ = c :: rest := by rw [readSign_append_snd]
      · rw [List.cons_append, readExponent_cons hc, hagain, if_neg hpower, hsign]
        exact Prod.ext rfl hdrop
  · obtain ⟨he, hE⟩ := not_or.1 hletter
    rw [readExponent_of_head he hE]
    exact ⟨rfl, rfl⟩

/-- Behind digits and points an exponent begins with its letter. -/
theorem head?_readExponent {cs : List Char} {d : Char} (h : (readExponent cs).1.head? = some d) :
    d = 'e' ∨ d = 'E' := by
  by_cases hletter : cs.head? = some 'e' ∨ cs.head? = some 'E'
  · obtain ⟨c, rest, hc, rfl⟩ := exists_of_head? hletter
    rw [readExponent_cons hc] at h
    split at h
    · cases h
    · cases h
      exact hc
  · obtain ⟨he, hE⟩ := not_or.1 hletter
    rw [readExponent_of_head he hE] at h
    cases h

theorem readNumber_alone (cs : List Char) :
    (readNumber cs).1 ++ (readNumber cs).2 = cs ∧
      readNumber (readNumber cs).1 = ((readNumber cs).1, []) := by
  let p : Char → Bool := fun c => c.isDigit || c == '.'
  obtain ⟨hjoin, hexponent⟩ := readExponent_alone (cs.dropWhile p)
  have hstop : ∀ d, (readExponent (cs.dropWhile p)).1.head? = some d → p d = false := by
    intro d hd
    rcases head?_readExponent hd with rfl | rfl
    · decide
    · decide
  have hspan : ∀ exponent : List Char, (∀ d, exponent.head? = some d → p d = false) →
      readDigits (cs.takeWhile p ++ exponent) = (cs.takeWhile p, exponent) := by
    intro exponent hhead
    have hall : ∀ c ∈ cs.takeWhile p, p c = true := fun _ => List.mem_takeWhile_imp
    rw [readDigits, List.takeWhile_append_of_pos hall, List.dropWhile_append_of_pos hall]
    cases exponent with
    | nil => simp
    | cons d rest =>
      have hd : p d = false := hhead d rfl
      rw [List.takeWhile_cons_of_neg (by simp [hd]), List.dropWhile_cons_of_neg (by simp [hd]),
        List.append_nil]
  have hnumber : readNumber cs =
      (cs.takeWhile p ++ (readExponent (cs.dropWhile p)).1, (readExponent (cs.dropWhile p)).2) :=
    rfl
  rw [hnumber]
  constructor
  · rw [List.append_assoc, hjoin, List.takeWhile_append_dropWhile]
  · rw [readNumber, hspan _ hstop]
    dsimp only
    rw [hexponent]

theorem readNumber_fst_cons {c : Char} (h : c.isDigit = true) (rest : List Char) :
    ∃ front, (readNumber (c :: rest)).1 = c :: front := by
  simp only [readNumber, readDigits, List.takeWhile_cons, h, Bool.true_or, if_true]
  exact ⟨_, rfl⟩

theorem readMark?_alone {c : Char} {rest after : List Char} {mark : Mark}
    (h : readMark? c rest = some (mark, after)) :
    ∃ front, rest = front ++ after ∧ readMark? c front = some (mark, []) := by
  unfold readMark? at h
  split at h
  all_goals cases h
  all_goals first | exact ⟨['='], rfl, rfl⟩ | exact ⟨['>'], rfl, rfl⟩ | exact ⟨[], rfl, rfl⟩

/-- What a token is and where it ends is decided by its own characters. -/
theorem readKind?_alone {c : Char} {rest after : List Char} {kind : TokenKind}
    (h : readKind? c rest = some (kind, after)) :
    ∃ front, rest = front ++ after ∧ readKind? c front = some (kind, []) := by
  simp only [readKind?_eq] at h ⊢
  split at h
  · next hquote =>
    obtain ⟨⟨content, after⟩, hread, heq⟩ := Option.map_eq_some_iff.1 h
    cases heq
    obtain ⟨front, hfront, halone⟩ := readString?_alone hread
    refine ⟨front, hfront, ?_⟩
    rw [if_pos hquote, halone]
    rfl
  · next hquote =>
    split at h
    · next haccent =>
      obtain ⟨⟨name, after⟩, hread, heq⟩ := Option.map_eq_some_iff.1 h
      cases heq
      obtain ⟨front, hfront, halone⟩ := readQuotedName?_alone hread
      refine ⟨front, hfront, ?_⟩
      rw [if_neg hquote, if_pos haccent, halone]
      rfl
    · next haccent =>
      split at h
      · next hdigit =>
        obtain ⟨x, hread, heq⟩ := Option.map_eq_some_iff.1 h
        cases heq
        obtain ⟨hjoin, halone⟩ := readNumber_alone (c :: rest)
        obtain ⟨front, hfront⟩ := readNumber_fst_cons hdigit rest
        rw [hfront] at hjoin halone hread
        refine ⟨front, (List.cons.inj hjoin).2.symm, ?_⟩
        rw [if_neg hquote, if_neg haccent, if_pos hdigit, halone, hread]
        rfl
      · next hdigit =>
        simp only [if_neg hquote, if_neg haccent, if_neg hdigit]
        split at h
        · next hword =>
          cases h
          obtain ⟨htake, hdrop⟩ := span_takeWhile Text.continuesWord rest
          refine ⟨rest.takeWhile Text.continuesWord, List.takeWhile_append_dropWhile.symm, ?_⟩
          rw [if_pos hword, htake, hdrop]
        · next hword =>
          obtain ⟨⟨mark, after⟩, hread, heq⟩ := Option.map_eq_some_iff.1 h
          cases heq
          obtain ⟨front, hfront, halone⟩ := readMark?_alone hread
          refine ⟨front, hfront, ?_⟩
          rw [if_neg hword, halone]
          rfl

theorem opensComment_append {c : Char} {front : List Char} (h : OpensComment c front)
    (after : List Char) : OpensComment c (front ++ after) := by
  rcases opensComment_iff.1 h with ⟨rest, hc, rfl⟩ | ⟨rest, hc, rfl⟩
  · exact opensComment_iff.2 (.inl ⟨rest ++ after, hc, rfl⟩)
  · exact opensComment_iff.2 (.inr ⟨rest ++ after, hc, rfl⟩)

/-- A token that stands alone in a text is the only token of the text, and nothing is skipped. -/
theorem tokens_alone {gap tail lexeme after : List Char} {c : Char} {kind : TokenKind}
    {place : Position} (hgap : skipGap .blanks (gap ++ c :: tail) = c :: tail)
    (hread : readToken place c tail = .ok (kind, after)) (hlexeme : c :: tail = lexeme ++ after) :
    tokens (String.ofList lexeme) =
      .ok ⟨[⟨kind, [], lexeme, .start⟩], [], Position.start.advance lexeme⟩ := by
  have hkind : readKind? c tail = some (kind, after) := by
    rw [← toOption_readToken place, hread]
    rfl
  obtain ⟨front, rfl, halone⟩ := readKind?_alone hkind
  obtain rfl : c :: front = lexeme := List.append_cancel_right hlexeme
  have hopens : ¬ OpensComment c front := fun hfront =>
    not_opensComment_of_skipGap hgap (opensComment_append hfront after)
  have hskip : skipGap .blanks (c :: front) = c :: front := by
    rw [skipGap_cons hopens, if_neg (by simp [isBlank_of_skipGap hgap])]
  have hfront : c :: front = [] ++ c :: front := rfl
  rw [tokens, String.toList_ofList, tokensFrom_of_token hskip hfront,
    readToken_of_readKind? halone]
  dsimp only
  rw [take_lexeme (List.append_nil _).symm, tokensFrom_of_gap _ rfl]
  rfl

end SqlEngine.Lexer
