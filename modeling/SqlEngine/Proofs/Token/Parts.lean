import SqlEngine.Token.Lexer

/-!
# Parts of tokens

What the reader of each part of a token does with the first character that lies ahead: the closing
quote of a string, the letter and the sign of an exponent, the second half of a mark.
-/
namespace SqlEngine.Lexer

theorem readString?_of_not_mem {quote : Char} {cs : List Char} (h : quote ∉ cs) :
    readString? quote cs = none := by
  fun_induction readString? quote cs with
  | case1 | case3 => rfl
  | case2 | case4 | case5 => exact absurd List.mem_cons_self h
  | case6 d rest hquote ih =>
    rw [ih fun hrest => h (List.mem_cons_of_mem _ (List.mem_cons_of_mem _ hrest))]
    rfl
  | case7 c d rest hquote hpair ih =>
    rw [ih fun hrest => h (List.mem_cons_of_mem _ hrest)]
    rfl

/-- A string ends at its quote, unless the quote is doubled. -/
theorem readString?_close {quote : Char} {rest : List Char} (h : rest.head? ≠ some quote) :
    readString? quote (quote :: rest) = some ([], rest) := by
  cases rest with
  | nil => rw [readString?, if_pos rfl]
  | cons d r =>
    rw [readString?, if_pos rfl, if_neg]
    rintro rfl
    exact h rfl

theorem readString?_cons {quote c : Char} {rest : List Char} (hquote : c ≠ quote)
    (hpair : c ≠ '\\') : readString? quote (c :: rest) =
      (readString? quote rest).map fun (content, after) => (c :: content, after) := by
  cases rest with
  | nil => simp [readString?, hquote]
  | cons d r => rw [readString?, if_neg hquote, if_neg hpair]

theorem readExponent_of_head {cs : List Char} (he : cs.head? ≠ some 'e')
    (hE : cs.head? ≠ some 'E') : readExponent cs = ([], cs) := by
  cases cs with
  | nil => rfl
  | cons c rest =>
    have hc : (decide (c = 'e') || decide (c = 'E')) = false := by
      simp_all
    simp only [readExponent, hc, Bool.false_and]
    rfl

theorem readSign_of_head {cs : List Char} (hplus : cs.head? ≠ some '+')
    (hminus : cs.head? ≠ some '-') : readSign cs = ([], cs) := by
  cases cs with
  | nil => rfl
  | cons c rest =>
    have hc : (decide (c = '+') || decide (c = '-')) = false := by
      simp_all
    simp only [readSign, hc]
    rfl

/-- The digits of the power in an exponent, after its letter. -/
def powerOf (cs : List Char) : List Char := (readSign cs).2.takeWhile Char.isDigit

theorem readExponent_cons {c : Char} (h : c = 'e' ∨ c = 'E') (rest : List Char) :
    readExponent (c :: rest) =
      if powerOf rest = [] then ([], c :: rest)
      else (c :: (readSign rest).1 ++ powerOf rest, (readSign rest).2.dropWhile Char.isDigit) := by
  have hc : (decide (c = 'e') || decide (c = 'E')) = true := by
    simpa using h
  by_cases hpower : powerOf rest = []
  · rw [if_pos hpower]
    rw [powerOf] at hpower
    simp [readExponent, hpower]
  · rw [if_neg hpower]
    rw [powerOf] at hpower ⊢
    simp [readExponent, hc, hpower]

/-- A mark takes a second character only if that is `=` or `>`. -/
theorem readMark?_of_head {c : Char} {rest : List Char} (heq : rest.head? ≠ some '=')
    (hgt : rest.head? ≠ some '>') :
    readMark? c rest = (readMark? c []).map fun (mark, _) => (mark, rest) := by
  fun_cases readMark? c rest with
  | case1 | case3 | case4 | case7 => exact absurd rfl heq
  | case5 => exact absurd rfl hgt
  | case18 => simp_all [readMark?]
  | _ => rfl

/-- Whether a mark takes the second character does not depend on what follows it. -/
theorem readMark?_second {c d : Char} (h : d = '=' ∨ d = '>') {f : List Char → List Char}
    {rest : List Char} (hf : f (d :: rest) = d :: f rest) :
    readMark? c (f (d :: rest)) =
      (readMark? c (d :: rest)).map fun (mark, after) => (mark, f after) := by
  rcases h with rfl | rfl
  · rw [hf]
    unfold readMark?
    split <;> simp_all
  · rw [hf]
    unfold readMark?
    split <;> simp_all

end SqlEngine.Lexer
