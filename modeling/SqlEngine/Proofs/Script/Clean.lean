import SqlEngine.Script

/-!
# Texts without their comments

What the pass over a text leaves when comments are removed, mode by mode. A comment that is left
out leaves white space behind or stands at the end, so what is left begins with the first character
of the text or with white space; hence no comment comes into being where one is removed.
-/
namespace SqlEngine.Script

/-- What is left of a text, scanned from a mode, without its comments. -/
def clean (mode : Mode) (cs : List Char) : List Char := (scan mode cs).filterMap uncommented

/-- A comment begins with `c` in front of `rest`. -/
def OpensComment (c : Char) (rest : List Char) : Prop :=
  c = '-' ∧ rest.head? = some '-' ∨ c = '/' ∧ rest.head? = some '*'

theorem opensComment_iff {c : Char} {rest : List Char} :
    OpensComment c rest ↔
      (∃ r, c = '-' ∧ rest = '-' :: r) ∨ ∃ r, c = '/' ∧ rest = '*' :: r := by
  cases rest with
  | nil => simp [OpensComment]
  | cons d r => simp [OpensComment]

theorem not_opensComment {c : Char} {rest : List Char}
    (line : ∀ r, c = '-' → rest = '-' :: r → False)
    (block : ∀ r, c = '/' → rest = '*' :: r → False) : ¬ OpensComment c rest := by
  rw [opensComment_iff]
  rintro (⟨r, hc, hr⟩ | ⟨r, hc, hr⟩)
  · exact line r hc hr
  · exact block r hc hr

/-- A comment of the block form ends with `c` in front of `rest`. -/
def ClosesComment (c : Char) (rest : List Char) : Prop :=
  c = '*' ∧ rest.head? = some '/'

theorem not_closesComment {c : Char} {rest : List Char}
    (h : ∀ r, c = '*' → rest = '/' :: r → False) : ¬ ClosesComment c rest := by
  rintro ⟨hc, hhead⟩
  obtain ⟨r, hr⟩ := List.head?_eq_some_iff.1 hhead
  exact h r hc hr

/-- White space begins no comment. -/
theorem not_opensComment_of_isBlank {c : Char} {rest : List Char} (h : Text.isBlank c = true) :
    ¬ OpensComment c rest := by
  rintro (⟨rfl, -⟩ | ⟨rfl, -⟩)
  · revert h
    decide
  · revert h
    decide

/-- A character of code begins a string or leaves the pass in code. -/
theorem afterCode_cases (c : Char) :
    (c = '\'' ∨ c = '"') ∧ Mode.afterCode c = .quoted c ∨ Mode.afterCode c = .code := by
  by_cases hquote : c = '\'' ∨ c = '"'
  · refine .inl ⟨hquote, ?_⟩
    rw [Mode.afterCode, if_pos]
    simpa using hquote
  · refine .inr ?_
    rw [Mode.afterCode, if_neg]
    simpa using hquote

theorem afterCode_of_isBlank {c : Char} (h : Text.isBlank c = true) : Mode.afterCode c = .code := by
  rcases afterCode_cases c with ⟨rfl | rfl, -⟩ | hcode
  · revert h
    decide
  · revert h
    decide
  · exact hcode

theorem not_opensComment_of_quote {c : Char} {rest : List Char} (h : c = '\'' ∨ c = '"') :
    ¬ OpensComment c rest := by
  rintro (⟨rfl, -⟩ | ⟨rfl, -⟩)
  · revert h
    decide
  · revert h
    decide

theorem scan_code {c : Char} {rest : List Char} (h : ¬ OpensComment c rest) :
    scan .code (c :: rest) = (c, .ofCode c) :: scan (.afterCode c) rest := by
  rw [scan]
  · rintro r rfl rfl
    exact h (opensComment_iff.2 (.inl ⟨r, rfl, rfl⟩))
  · rintro r rfl rfl
    exact h (opensComment_iff.2 (.inr ⟨r, rfl, rfl⟩))

theorem uncommented_ofCode (c : Char) : uncommented (c, .ofCode c) = some c := by
  rw [Role.ofCode]
  split
  · rfl
  · split <;> rfl

@[simp]
theorem scan_nil (mode : Mode) : scan mode [] = [] := by
  rw [scan]

@[simp]
theorem clean_nil (mode : Mode) : clean mode [] = [] := by
  rw [clean, scan_nil, List.filterMap_nil]

/-- A character of code that begins no comment stays. -/
theorem clean_code {c : Char} {rest : List Char} (h : ¬ OpensComment c rest) :
    clean .code (c :: rest) = c :: clean (.afterCode c) rest := by
  rw [clean, scan_code h, List.filterMap_cons, uncommented_ofCode]
  rfl

theorem clean_code_line (rest : List Char) :
    clean .code ('-' :: '-' :: rest) = clean .lineComment rest := rfl

theorem clean_quoted_pair (quote c : Char) (rest : List Char) :
    clean (.quoted quote) ('\\' :: c :: rest) = '\\' :: c :: clean (.quoted quote) rest := rfl

theorem scan_quoted {quote c : Char} {rest : List Char} (h : c ≠ '\\' ∨ rest = []) :
    scan (.quoted quote) (c :: rest) =
      (c, .quoted) :: scan (if c = quote then .code else .quoted quote) rest := by
  rw [scan]
  rintro d r rfl rfl
  rcases h with h | h
  · exact h rfl
  · cases h

theorem clean_quoted {quote c : Char} {rest : List Char} (h : c ≠ '\\' ∨ rest = []) :
    clean (.quoted quote) (c :: rest) =
      c :: clean (if c = quote then .code else .quoted quote) rest := by
  rw [clean, scan_quoted h]
  rfl

theorem clean_lineComment (c : Char) (rest : List Char) :
    clean .lineComment (c :: rest) =
      if c = '\n' then '\n' :: clean .code rest else clean .lineComment rest := by
  rw [clean, scan]
  split
  · next h =>
    rw [h]
    rfl
  · rfl

theorem clean_blockComment_end (rest : List Char) :
    clean .blockComment ('*' :: '/' :: rest) = ' ' :: clean .code rest := rfl

theorem scan_blockComment {c : Char} {rest : List Char} (h : ¬ ClosesComment c rest) :
    scan .blockComment (c :: rest) = (c, .comment) :: scan .blockComment rest := by
  rw [scan]
  rintro r rfl rfl
  exact h ⟨rfl, rfl⟩

theorem clean_blockComment {c : Char} {rest : List Char} (h : ¬ ClosesComment c rest) :
    clean .blockComment (c :: rest) = clean .blockComment rest := by
  rw [clean, scan_blockComment h]
  rfl

section Heads

variable {blanks : List Char} (hblanks : ∀ c ∈ blanks, Text.isBlank c = true)
include hblanks

theorem head_clean_lineComment {cs : List Char} {d : Char}
    (h : (clean .lineComment cs ++ blanks).head? = some d) : Text.isBlank d = true := by
  induction cs with
  | nil => exact hblanks d (List.mem_of_head? h)
  | cons c rest ih =>
    rw [clean_lineComment] at h
    split at h
    · cases h
      decide
    · exact ih h

theorem head_clean_blockComment {cs : List Char} {d : Char}
    (h : (clean .blockComment cs ++ blanks).head? = some d) : Text.isBlank d = true := by
  induction cs with
  | nil => exact hblanks d (List.mem_of_head? h)
  | cons c rest ih =>
    by_cases hend : ClosesComment c rest
    · obtain ⟨rfl, hhead⟩ := hend
      obtain ⟨r, rfl⟩ := List.head?_eq_some_iff.1 hhead
      rw [clean_blockComment_end] at h
      cases h
      decide
    · rw [clean_blockComment hend] at h
      exact ih h

/-- A text without its comments begins with white space or as it began before. -/
theorem head_clean {cs : List Char} {d : Char} (h : (clean .code cs ++ blanks).head? = some d) :
    Text.isBlank d = true ∨ cs.head? = some d := by
  cases cs with
  | nil => exact .inl (hblanks d (List.mem_of_head? h))
  | cons c rest =>
    by_cases hopens : OpensComment c rest
    · rcases opensComment_iff.1 hopens with ⟨r, rfl, rfl⟩ | ⟨r, rfl, rfl⟩
      · exact .inl (head_clean_lineComment hblanks h)
      · exact .inl (head_clean_blockComment hblanks h)
    · rw [clean_code hopens] at h
      exact .inr h

/-- A character that is not blank begins what is left only if it began the text. -/
theorem head_clean_ne {cs : List Char} {d : Char} (hd : Text.isBlank d = false)
    (h : cs.head? ≠ some d) : (clean .code cs ++ blanks).head? ≠ some d := by
  intro hhead
  rcases head_clean hblanks hhead with hblank | hcs
  · rw [hd] at hblank
    cases hblank
  · exact h hcs

/-- No comment begins where a comment is removed. -/
theorem not_opensComment_clean {c : Char} {rest : List Char} (h : ¬ OpensComment c rest) :
    ¬ OpensComment c (clean .code rest ++ blanks) := by
  rintro (⟨rfl, hhead⟩ | ⟨rfl, hhead⟩)
  · exact head_clean_ne hblanks (by decide) (fun hrest => h (.inl ⟨rfl, hrest⟩)) hhead
  · exact head_clean_ne hblanks (by decide) (fun hrest => h (.inr ⟨rfl, hrest⟩)) hhead

end Heads

/-- No character of the text is part of a comment. -/
def CommentFree (mode : Mode) (cs : List Char) : Prop :=
  ∀ p ∈ scan mode cs, p.2 ≠ .comment ∧ p.2 ≠ .commentEnd

/-- Where nothing is a comment, nothing is removed. -/
theorem clean_of_commentFree {mode : Mode} {cs : List Char} (h : CommentFree mode cs) :
    clean mode cs = cs := by
  have hkeep : ∀ marked : List (Char × Role),
      (∀ p ∈ marked, p.2 ≠ .comment ∧ p.2 ≠ .commentEnd) →
      marked.filterMap uncommented = marked.map Prod.fst := by
    intro marked hmarked
    induction marked with
    | nil => rfl
    | cons p rest ih =>
      have hp : uncommented p = some p.1 := by
        have hrole := hmarked p List.mem_cons_self
        obtain ⟨c, role⟩ := p
        cases role with
        | code | quoted | terminator => rfl
        | comment => exact absurd rfl hrole.1
        | commentEnd => exact absurd rfl hrole.2
      rw [List.filterMap_cons, hp, List.map_cons,
        ih fun q hq => hmarked q (List.mem_cons_of_mem p hq)]
  rw [clean, hkeep _ h, map_fst_scan]

theorem commentFree_cons {mode next : Mode} {c : Char} {role : Role} {rest : List Char}
    (hscan : scan mode (c :: rest) = (c, role) :: scan next rest)
    (hrole : role ≠ .comment ∧ role ≠ .commentEnd) :
    CommentFree mode (c :: rest) ↔ CommentFree next rest := by
  simp only [CommentFree, hscan, List.forall_mem_cons, and_iff_right hrole]

theorem commentFree_code {c : Char} {rest : List Char} (h : ¬ OpensComment c rest) :
    CommentFree .code (c :: rest) ↔ CommentFree (.afterCode c) rest := by
  refine commentFree_cons (scan_code h) ?_
  rw [Role.ofCode]
  split
  · decide
  · split <;> decide

theorem commentFree_blank {c : Char} {rest : List Char} (h : Text.isBlank c = true) :
    CommentFree .code (c :: rest) ↔ CommentFree .code rest := by
  rw [commentFree_code (not_opensComment_of_isBlank h), afterCode_of_isBlank h]

theorem commentFree_quoted {quote c : Char} {rest : List Char} (h : c ≠ '\\' ∨ rest = []) :
    CommentFree (.quoted quote) (c :: rest) ↔
      CommentFree (if c = quote then .code else .quoted quote) rest :=
  commentFree_cons (scan_quoted h) (by decide)

theorem commentFree_quoted_pair {quote c : Char} {rest : List Char} :
    CommentFree (.quoted quote) ('\\' :: c :: rest) ↔ CommentFree (.quoted quote) rest := by
  simp [CommentFree, scan]

/-- The mode in which what is left of a text is to be scanned: comments are gone. -/
def Mode.cleaned : Mode → Mode
  | .quoted quote => .quoted quote
  | _ => .code

theorem cleaned_afterCode (c : Char) : (Mode.afterCode c).cleaned = .afterCode c := by
  rw [Mode.afterCode]
  split <;> rfl

/-- What is left of a text is free of comments. -/
theorem commentFree_clean (mode : Mode) (cs : List Char) :
    CommentFree mode.cleaned (clean mode cs) := by
  fun_induction scan mode cs with
  | case1 mode =>
    intro p hp
    rw [clean_nil, scan] at hp
    cases hp
  | case2 rest ih => exact ih
  | case3 rest ih => exact ih
  | case4 c rest line block ih =>
    rw [clean_code (not_opensComment line block)]
    rw [cleaned_afterCode] at ih
    refine (commentFree_code ?_).2 ih
    rcases afterCode_cases c with ⟨hquote, -⟩ | hcode
    · exact not_opensComment_of_quote hquote
    · have hnone : ∀ d ∈ ([] : List Char), Text.isBlank d = true := by simp
      rw [hcode]
      simpa using not_opensComment_clean hnone (not_opensComment line block)
  | case5 quote c rest ih => exact commentFree_quoted_pair.2 ih
  | case6 quote c rest pair ih =>
    have hc : c ≠ '\\' ∨ rest = [] := by
      cases rest with
      | nil => exact .inr rfl
      | cons d r => exact .inl fun hc => pair d r hc rfl
    rw [clean_quoted hc]
    refine (commentFree_quoted ?_).2 ?_
    · rcases hc with hc | rfl
      · exact .inl hc
      · exact .inr (clean_nil _)
    · by_cases hquote : c = quote
      · rw [if_pos hquote] at ih ⊢
        exact ih
      · rw [if_neg hquote] at ih ⊢
        exact ih
  | case7 rest ih =>
    rw [clean_lineComment]
    exact (commentFree_blank (by decide)).2 ih
  | case8 c rest hc ih =>
    rw [clean_lineComment, if_neg hc]
    exact ih
  | case9 rest ih => exact (commentFree_blank (by decide)).2 ih
  | case10 c rest hend ih =>
    rw [clean_blockComment (not_closesComment hend)]
    exact ih

end SqlEngine.Script
