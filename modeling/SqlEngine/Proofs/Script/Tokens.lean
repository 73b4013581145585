import SqlEngine.Proofs.Script.Clean
import SqlEngine.Proofs.Text.Blank
import SqlEngine.Proofs.Token.Kinds
import SqlEngine.Proofs.Token.Parts

/-!
# Tokens of a text without its comments

The pass that removes comments and the reader of tokens go over a text side by side. Between two
tokens both are in code, whatever the gap was; inside a string they take the same quotes and
backslashes; and any other token is read alike because no comment begins within it or, where one
begins behind it, white space takes its place.
-/
namespace SqlEngine.Script

open Lexer

/-- The mode of the pass that goes with what the reader of tokens is skipping. -/
def modeOf : Skipping → Mode
  | .blanks => .code
  | .lineComment => .lineComment
  | .blockComment => .blockComment

theorem skipGap_cons {c : Char} {rest : List Char} (h : ¬ OpensComment c rest) :
    skipGap .blanks (c :: rest) =
      if Text.isBlank c then skipGap .blanks rest else c :: rest := by
  rw [skipGap.eq_def]
  split
  · next heq => cases heq
  · next heq =>
    cases heq
    exact absurd (.inl ⟨rfl, rfl⟩) h
  · next heq =>
    cases heq
    exact absurd (.inr ⟨rfl, rfl⟩) h
  · next heq =>
    cases heq
    rfl
  · next hmode _ => cases hmode
  · next hmode _ => cases hmode
  · next hmode _ => cases hmode

theorem skipGap_blank {c : Char} {rest : List Char} (h : Text.isBlank c = true) :
    skipGap .blanks (c :: rest) = skipGap .blanks rest := by
  rw [skipGap_cons (not_opensComment_of_isBlank h), if_pos h]

theorem skipGap_blanks_append {blanks : List Char} (hblanks : ∀ c ∈ blanks, Text.isBlank c = true)
    (cs : List Char) : skipGap .blanks (blanks ++ cs) = skipGap .blanks cs := by
  induction blanks with
  | nil => rfl
  | cons c rest ih =>
    rw [List.cons_append, skipGap_blank (hblanks c List.mem_cons_self)]
    exact ih fun d hd => hblanks d (List.mem_cons_of_mem c hd)

theorem of_quote {quote : Char} (h : quote = '\'' ∨ quote = '"') :
    Text.isBlank quote = false ∧ quote ≠ '\\' ∧ Mode.afterCode quote = .quoted quote := by
  rcases h with rfl | rfl
  · decide
  · decide

/-- Neither white space nor a quote, nor a character that can begin a comment. -/
def IsPlain (c : Char) : Prop :=
  Text.isBlank c = false ∧ c ≠ '-' ∧ c ≠ '/' ∧ c ≠ '\'' ∧ c ≠ '"'

instance (c : Char) : Decidable (IsPlain c) := inferInstanceAs (Decidable (_ ∧ _))

theorem isPlain_of_continuesWord {c : Char} (h : Text.continuesWord c = true) : IsPlain c := by
  refine ⟨Text.isBlank_of_continuesWord h, ?_, ?_, ?_, ?_⟩
  all_goals
    rintro rfl
    revert h
    decide +kernel

theorem isPlain_of_isDigit {c : Char} (h : c.isDigit = true) : IsPlain c := by
  refine ⟨Text.isBlank_of_isDigit h, ?_, ?_, ?_, ?_⟩
  all_goals
    rintro rfl
    revert h
    decide

theorem isPlain_of_isDigit_or_point {c : Char} (h : (c.isDigit || c == '.') = true) :
    IsPlain c := by
  rcases Bool.or_eq_true_iff.1 h with hdigit | hpoint
  · exact isPlain_of_isDigit hdigit
  · rw [beq_iff_eq.1 hpoint]
    decide

/-- A character that is plain stays and leaves the pass in code. -/
theorem IsPlain.clean {c : Char} (h : IsPlain c) (rest : List Char) :
    clean .code (c :: rest) = c :: clean .code rest := by
  obtain ⟨-, hminus, hslash, hsingle, hdouble⟩ := h
  have hopens : ¬ OpensComment c rest := by
    rintro (⟨hc, -⟩ | ⟨hc, -⟩)
    · exact hminus hc
    · exact hslash hc
  rcases afterCode_cases c with ⟨hquote, -⟩ | hcode
  · exact absurd hquote (not_or.2 ⟨hsingle, hdouble⟩)
  · rw [clean_code hopens, hcode]

theorem exists_of_head? {a b : Char} {cs : List Char} (h : cs.head? = some a ∨ cs.head? = some b) :
    ∃ c rest, (c = a ∨ c = b) ∧ cs = c :: rest := by
  rcases h with h | h
  · obtain ⟨rest, rfl⟩ := List.head?_eq_some_iff.1 h
    exact ⟨a, rest, .inl rfl, rfl⟩
  · obtain ⟨rest, rfl⟩ := List.head?_eq_some_iff.1 h
    exact ⟨b, rest, .inr rfl, rfl⟩

theorem powerOf_of_blank {cs : List Char} (h : ∀ d, cs.head? = some d → Text.isBlank d = true) :
    powerOf cs = [] := by
  cases cs with
  | nil => rfl
  | cons d rest =>
    have hblank := h d rfl
    have hsign : readSign (d :: rest) = ([], d :: rest) := by
      refine readSign_of_head ?_ ?_
      all_goals
        rintro ⟨⟩
        revert hblank
        decide
    have hdigit : d.isDigit = false := by
      by_contra hdigit
      rw [Text.isBlank_of_isDigit (by simpa using hdigit)] at hblank
      cases hblank
    rw [powerOf, hsign]
    simp [hdigit]

section Simulation

variable {blanks : List Char} (hblanks : ∀ c ∈ blanks, Text.isBlank c = true)
include hblanks

theorem not_opensComment_afterCode {c : Char} {rest : List Char} (h : ¬ OpensComment c rest) :
    ¬ OpensComment c (clean (.afterCode c) rest ++ blanks) := by
  rcases afterCode_cases c with ⟨hquote, -⟩ | hcode
  · exact not_opensComment_of_quote hquote
  · rw [hcode]
    exact not_opensComment_clean hblanks h

/-- Behind the gap in front of a text, with its comments or without them, the same token begins. -/
theorem skipGap_clean (s : Skipping) (cs : List Char) :
    skipGap .blanks (clean (modeOf s) cs ++ blanks) =
      match skipGap s cs with
      | [] => []
      | c :: tail => c :: (clean (.afterCode c) tail ++ blanks) := by
  fun_induction skipGap s cs with
  | case1 s =>
    rw [clean_nil, List.nil_append, ← List.append_nil blanks, skipGap_blanks_append hblanks]
    rfl
  | case2 rest ih | case3 rest ih => exact ih
  | case4 c rest line block hblank ih =>
    rw [modeOf, clean_code (not_opensComment line block), afterCode_of_isBlank hblank,
      List.cons_append, skipGap_blank hblank]
    exact ih
  | case5 c rest line block hblank =>
    have hopens := not_opensComment line block
    rw [modeOf, clean_code hopens, List.cons_append,
      skipGap_cons (not_opensComment_afterCode hblanks hopens), if_neg hblank]
  | case6 rest ih =>
    rw [modeOf, clean_lineComment, if_pos rfl, List.cons_append, skipGap_blank (by decide)]
    exact ih
  | case7 c rest hc ih =>
    rw [modeOf, clean_lineComment, if_neg hc]
    exact ih
  | case8 rest ih =>
    rw [modeOf, clean_blockComment_end, List.cons_append, skipGap_blank (by decide)]
    exact ih
  | case9 c rest hend ih =>
    rw [modeOf, clean_blockComment (not_closesComment hend)]
    exact ih

/-- A string is read alike, and what follows it goes on without its comments. -/
theorem readString?_clean {quote : Char} (hquote : quote = '\'' ∨ quote = '"') (cs : List Char) :
    readString? quote (clean (.quoted quote) cs ++ blanks) =
      (readString? quote cs).map fun (content, after) =>
        (content, clean .code after ++ blanks) := by
  obtain ⟨hblank, hslash, hafter⟩ := of_quote hquote
  have hmem : quote ∉ blanks := by
    intro hquote
    rw [hblanks quote hquote] at hblank
    cases hblank
  have hhead : blanks.head? ≠ some quote := fun h => hmem (List.mem_of_head? h)
  fun_induction readString? quote cs with
  | case1 =>
    rw [clean_nil]
    exact readString?_of_not_mem hmem
  | case2 =>
    rw [clean_quoted (.inr rfl), clean_nil]
    exact readString?_close hhead
  | case3 c hc =>
    rw [clean_quoted (.inr rfl), clean_nil]
    refine readString?_of_not_mem fun h => ?_
    rcases List.mem_cons.1 h with rfl | h
    · exact hc rfl
    · exact hmem h
  | case4 rest ih =>
    have hclean : clean (.quoted quote) (quote :: quote :: rest) =
        quote :: quote :: clean (.quoted quote) rest := by
      rw [clean_quoted (.inl hslash), if_pos rfl, clean_code (not_opensComment_of_quote hquote),
        hafter]
    rw [hclean, List.cons_append, List.cons_append, readString?, if_pos rfl, if_pos rfl, ih]
    cases readString? quote rest <;> rfl
  | case5 d rest hd =>
    have hne : (d :: rest).head? ≠ some quote := by simpa using hd
    rw [clean_quoted (.inl hslash), if_pos rfl, List.cons_append,
      readString?_close (head_clean_ne hblanks hblank hne)]
    rfl
  | case6 d rest hq ih =>
    rw [clean_quoted_pair, List.cons_append, List.cons_append, readString?, if_neg hq, if_pos rfl,
      ih]
    cases readString? quote rest <;> rfl
  | case7 c d rest hc hpair ih =>
    rw [clean_quoted (.inl hpair), if_neg hc, List.cons_append, readString?_cons hc hpair, ih]
    cases readString? quote (d :: rest) <;> rfl

/-- A run of plain characters is cut off alike. -/
theorem span_clean {p : Char → Bool} (hp : ∀ c, p c = true → IsPlain c) (cs : List Char) :
    (clean .code cs ++ blanks).takeWhile p = cs.takeWhile p ∧
      (clean .code cs ++ blanks).dropWhile p = clean .code (cs.dropWhile p) ++ blanks := by
  have hstop : ∀ ds : List Char, (∀ d, ds.head? = some d → p d = false) →
      ds.takeWhile p = [] ∧ ds.dropWhile p = ds := by
    intro ds hds
    cases ds with
    | nil => exact ⟨rfl, rfl⟩
    | cons d r =>
      have hd := hds d rfl
      simp [hd]
  have hblank : ∀ d, Text.isBlank d = true → p d = false := by
    intro d hd
    by_contra hpd
    have hplain := (hp d (by simpa using hpd)).1
    rw [hd] at hplain
    cases hplain
  induction cs with
  | nil =>
    rw [clean_nil, List.nil_append]
    exact hstop blanks fun d hd => hblank d (hblanks d (List.mem_of_head? hd))
  | cons c rest ih =>
    cases hc : p c with
    | true =>
      rw [(hp c hc).clean, List.cons_append]
      simpa [hc] using ih
    | false =>
      have hhead : ∀ d, (clean .code (c :: rest) ++ blanks).head? = some d → p d = false := by
        intro d hd
        rcases head_clean hblanks hd with hd | hd
        · exact hblank d hd
        · cases hd
          exact hc
      have hrest := hstop (c :: rest) fun d hd => by
        cases hd
        exact hc
      rw [hrest.1, hrest.2]
      exact hstop _ hhead

/-- The power of an exponent is read alike. Two minus signs make no power, whether they are taken
for a sign or for a comment. -/
theorem powerOf_clean (cs : List Char) :
    powerOf (clean .code cs ++ blanks) = powerOf cs ∧ (powerOf cs ≠ [] →
      (readSign (clean .code cs ++ blanks)).1 = (readSign cs).1 ∧
      (readSign (clean .code cs ++ blanks)).2.dropWhile Char.isDigit =
        clean .code ((readSign cs).2.dropWhile Char.isDigit) ++ blanks) := by
  by_cases hplus : cs.head? = some '+'
  · obtain ⟨r, rfl⟩ := List.head?_eq_some_iff.1 hplus
    have hspan := span_clean hblanks (fun _ => isPlain_of_isDigit) r
    rw [IsPlain.clean (by decide), List.cons_append]
    exact ⟨hspan.1, fun _ => ⟨rfl, hspan.2⟩⟩
  · by_cases hminus : cs.head? = some '-'
    · obtain ⟨r, rfl⟩ := List.head?_eq_some_iff.1 hminus
      by_cases hcomment : r.head? = some '-'
      · obtain ⟨r, rfl⟩ := List.head?_eq_some_iff.1 hcomment
        have hpower : powerOf ('-' :: '-' :: r) = [] := rfl
        refine ⟨?_, fun h => absurd hpower h⟩
        rw [hpower, clean_code_line]
        exact powerOf_of_blank fun d hd => head_clean_lineComment hblanks hd
      · have hspan := span_clean hblanks (fun _ => isPlain_of_isDigit) r
        have hclean : clean .code ('-' :: r) = '-' :: clean .code r := by
          refine clean_code ?_
          rintro (⟨-, h⟩ | ⟨h, -⟩)
          · exact hcomment h
          · revert h
            decide
        rw [hclean, List.cons_append]
        exact ⟨hspan.1, fun _ => ⟨rfl, hspan.2⟩⟩
    · have hspan := span_clean hblanks (fun _ => isPlain_of_isDigit) cs
      have hplain : readSign (clean .code cs ++ blanks) = ([], clean .code cs ++ blanks) :=
        readSign_of_head (head_clean_ne hblanks (by decide) hplus)
          (head_clean_ne hblanks (by decide) hminus)
      rw [powerOf, powerOf, hplain, readSign_of_head hplus hminus]
      exact ⟨hspan.1, fun _ => ⟨rfl, hspan.2⟩⟩

/-- An exponent is read alike, and what follows it goes on without its comments. -/
theorem readExponent_clean (cs : List Char) :
    readExponent (clean .code cs ++ blanks) =
      ((readExponent cs).1, clean .code (readExponent cs).2 ++ blanks) := by
  by_cases hletter : cs.head? = some 'e' ∨ cs.head? = some 'E'
  · obtain ⟨c, rest, hc, rfl⟩ := exists_of_head? hletter
    have hplain : IsPlain c := by
      rcases hc with rfl | rfl <;> decide
    obtain ⟨hpower, hrest⟩ := powerOf_clean hblanks rest
    rw [hplain.clean, List.cons_append, readExponent_cons hc, readExponent_cons hc, hpower]
    split
    · rw [hplain.clean]
      rfl
    · next hne =>
      rw [(hrest hne).1, (hrest hne).2]
  · obtain ⟨he, hE⟩ := not_or.1 hletter
    rw [readExponent_of_head he hE, readExponent_of_head (head_clean_ne hblanks (by decide) he)
      (head_clean_ne hblanks (by decide) hE)]

theorem readNumber_clean (cs : List Char) :
    readNumber (clean .code cs ++ blanks) =
      ((readNumber cs).1, clean .code (readNumber cs).2 ++ blanks) := by
  obtain ⟨htake, hdrop⟩ := span_clean hblanks (fun _ => isPlain_of_isDigit_or_point) cs
  simp only [readNumber, readDigits, htake, hdrop, readExponent_clean hblanks]

theorem readMark?_clean (c : Char) (rest : List Char) :
    readMark? c (clean .code rest ++ blanks) =
      (readMark? c rest).map fun (mark, after) => (mark, clean .code after ++ blanks) := by
  by_cases hsecond : rest.head? = some '=' ∨ rest.head? = some '>'
  · obtain ⟨d, r, hd, rfl⟩ := exists_of_head? hsecond
    have hplain : IsPlain d := by
      rcases hd with rfl | rfl <;> decide
    refine readMark?_second (f := fun cs => clean .code cs ++ blanks) hd ?_
    simp only [hplain.clean, List.cons_append]
  · obtain ⟨heq, hgt⟩ := not_or.1 hsecond
    rw [readMark?_of_head heq hgt, readMark?_of_head (head_clean_ne hblanks (by decide) heq)
      (head_clean_ne hblanks (by decide) hgt)]
    cases readMark? c [] <;> rfl

end Simulation

end SqlEngine.Script
