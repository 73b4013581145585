import SqlEngine.Proofs.Token.Parts

/-!
# Text literals

A text is written as a literal by doubling its single quotes. It is read back character by character
if no run of backslashes of odd length stands in front of a quote or at the end: the last backslash
of such a run would take the quote along. The condition is given by runs, and by pairs for the
proof.
-/
namespace SqlEngine.Lexer

/-- Single quotes are written twice. -/
def doubleQuotes (cs : List Char) : List Char :=
  cs.flatMap fun c => if c = '\'' then ['\'', '\''] else [c]

/-- A run of backslashes that stands in front of a single quote or at the end has even length. -/
def EvenBackslashes (cs : List Char) : Prop :=
  ∀ (before after : List Char) (n : Nat), cs = before ++ List.replicate n '\\' ++ after →
    before.getLast? ≠ some '\\' → after = [] ∨ after.head? = some '\'' → n % 2 = 0

/-- Every backslash comes with a character of its own, which is no single quote. -/
inductive Paired : List Char → Prop
  | nil : Paired []
  | pair {d : Char} {rest : List Char} (hd : d ≠ '\'') (hrest : Paired rest) :
      Paired ('\\' :: d :: rest)
  | single {c : Char} {rest : List Char} (hc : c ≠ '\\') (hrest : Paired rest) : Paired (c :: rest)

theorem paired_pair {d : Char} {rest : List Char} :
    Paired ('\\' :: d :: rest) ↔ d ≠ '\'' ∧ Paired rest := by
  constructor
  · intro h
    cases h with
    | pair hd hrest => exact ⟨hd, hrest⟩
    | single hc => exact absurd rfl hc
  · rintro ⟨hd, hrest⟩
    exact .pair hd hrest

theorem paired_single {c : Char} {rest : List Char} (hc : c ≠ '\\') :
    Paired (c :: rest) ↔ Paired rest := by
  constructor
  · intro h
    cases h with
    | pair => exact absurd rfl hc
    | single _ hrest => exact hrest
  · exact .single hc

theorem not_paired_backslash : ¬ Paired ['\\'] := by
  intro h
  cases h with
  | single hc => exact hc rfl

instance Paired.decidable : (cs : List Char) → Decidable (Paired cs)
  | [] => isTrue .nil
  | [c] =>
    if hc : c = '\\' then isFalse (hc ▸ not_paired_backslash)
    else isTrue (.single hc .nil)
  | c :: d :: rest =>
    if hc : c = '\\' then
      have := Paired.decidable rest
      decidable_of_iff (d ≠ '\'' ∧ Paired rest) (hc ▸ paired_pair.symm)
    else
      have := Paired.decidable (d :: rest)
      decidable_of_iff (Paired (d :: rest)) (paired_single hc).symm

theorem getLast?_cons_ne {c d : Char} {cs : List Char} (hc : c ≠ d) (h : cs.getLast? ≠ some d) :
    (c :: cs).getLast? ≠ some d := by
  cases cs with
  | nil => simpa using hc
  | cons e r => rwa [List.getLast?_cons_cons]

theorem getLast?_ne_of_cons {c d : Char} {cs : List Char} (h : (c :: cs).getLast? ≠ some d) :
    cs.getLast? ≠ some d := by
  cases cs with
  | nil => simp
  | cons e r => rwa [List.getLast?_cons_cons] at h

namespace EvenBackslashes

/-- The last backslash of a text does not stand alone. -/
theorem exists_cons {rest : List Char} (h : EvenBackslashes ('\\' :: rest)) :
    ∃ d rest', d ≠ '\'' ∧ rest = d :: rest' := by
  cases rest with
  | nil =>
    have hodd := h [] [] 1 rfl (by simp) (.inl rfl)
    cases hodd
  | cons d rest' =>
    refine ⟨d, rest', ?_, rfl⟩
    rintro rfl
    have hodd := h [] ('\'' :: rest') 1 rfl (by simp) (.inr rfl)
    cases hodd

theorem tail {c : Char} {rest : List Char} (hc : c ≠ '\\') (h : EvenBackslashes (c :: rest)) :
    EvenBackslashes rest := by
  intro before after n hsplit hlast hafter
  exact h (c :: before) after n (by rw [hsplit]; rfl) (getLast?_cons_ne hc hlast) hafter

theorem drop_pair {d : Char} {rest : List Char} (h : EvenBackslashes ('\\' :: d :: rest)) :
    EvenBackslashes rest := by
  by_cases hd : d = '\\'
  · subst hd
    intro before after n hsplit hlast hafter
    cases before with
    | nil =>
      have hlonger := h [] after (n + 2) (by rw [hsplit]; rfl) (by simp) hafter
      omega
    | cons e r =>
      refine h ('\\' :: '\\' :: e :: r) after n (by rw [hsplit]; rfl) ?_ hafter
      rwa [List.getLast?_cons_cons, List.getLast?_cons_cons]
  · intro before after n hsplit hlast hafter
    refine h ('\\' :: d :: before) after n (by rw [hsplit]; rfl) ?_ hafter
    rw [List.getLast?_cons_cons]
    exact getLast?_cons_ne hd hlast

theorem paired {cs : List Char} (h : EvenBackslashes cs) : Paired cs := by
  induction hn : cs.length using Nat.strongRecOn generalizing cs with
  | ind n ih =>
    cases cs with
    | nil => exact .nil
    | cons c rest =>
      rw [List.length_cons] at hn
      by_cases hc : c = '\\'
      · subst hc
        obtain ⟨d, rest', hd, rfl⟩ := h.exists_cons
        rw [List.length_cons] at hn
        exact .pair hd (ih _ (by omega) h.drop_pair rfl)
      · exact .single hc (ih _ (by omega) (h.tail hc) rfl)

end EvenBackslashes

theorem Paired.evenBackslashes {cs : List Char} (h : Paired cs) : EvenBackslashes cs := by
  induction h with
  | nil =>
    intro before after n hsplit hlast hafter
    simp_all
  | @pair d rest hd hrest ih =>
    intro before after n hsplit hlast hafter
    match before, n with
    | [], 0 => rfl
    | [], 1 =>
      obtain rfl : d :: rest = after := by simpa using hsplit
      simp [hd] at hafter
    | [], n + 2 =>
      rw [List.replicate_succ, List.replicate_succ] at hsplit
      cases hsplit
      have hshorter := ih [] after n rfl (by simp) hafter
      omega
    | [b], n =>
      have hb : '\\' = b := (List.cons.inj hsplit).1
      simp [← hb] at hlast
    | b :: d' :: before', n =>
      cases hsplit
      exact ih before' after n rfl (getLast?_ne_of_cons (getLast?_ne_of_cons hlast)) hafter
  | @single c rest hc hrest ih =>
    intro before after n hsplit hlast hafter
    match before, n with
    | [], 0 => rfl
    | [], n + 1 =>
      rw [List.replicate_succ] at hsplit
      cases hsplit
      exact absurd rfl hc
    | b :: before', n =>
      cases hsplit
      exact ih before' after n rfl (getLast?_ne_of_cons hlast) hafter

theorem evenBackslashes_iff {cs : List Char} : EvenBackslashes cs ↔ Paired cs :=
  ⟨EvenBackslashes.paired, Paired.evenBackslashes⟩

instance (cs : List Char) : Decidable (EvenBackslashes cs) :=
  decidable_of_iff (Paired cs) evenBackslashes_iff.symm

theorem doubleQuotes_cons {c : Char} (hc : c ≠ '\'') (rest : List Char) :
    doubleQuotes (c :: rest) = c :: doubleQuotes rest := by
  simp [doubleQuotes, hc]

theorem doubleQuotes_quote (rest : List Char) :
    doubleQuotes ('\'' :: rest) = '\'' :: '\'' :: doubleQuotes rest := rfl

/-- A literal is read back as the text it was made of. -/
theorem readString?_doubleQuotes {cs after : List Char} (h : Paired cs)
    (hafter : after.head? ≠ some '\'') :
    readString? '\'' (doubleQuotes cs ++ '\'' :: after) = some (cs, after) := by
  induction h with
  | nil => exact readString?_close hafter
  | @pair d rest hd hrest ih =>
    rw [doubleQuotes_cons (by decide), doubleQuotes_cons hd, List.cons_append, List.cons_append,
      readString?, if_neg (by decide), if_pos rfl, ih]
    simp [hd]
  | @single c rest hc hrest ih =>
    by_cases hquote : c = '\''
    · subst hquote
      rw [doubleQuotes_quote, List.cons_append, List.cons_append, readString?, if_pos rfl,
        if_pos rfl, ih]
      rfl
    · rw [doubleQuotes_cons hquote, List.cons_append, readString?_cons hquote hc, ih]
      rfl

end SqlEngine.Lexer
