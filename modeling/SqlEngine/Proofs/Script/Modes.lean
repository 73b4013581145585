import SqlEngine.Proofs.Script.Clean

/-!
# Going on with a script

The pass over a text goes on behind its front in the mode that the front leaves it in. This is so
where the border neither cuts a mark of two characters in two nor has a quote behind it, which a
backslash could take along.
-/
namespace SqlEngine.Script

/-- A string of this mode is one that the pass can come to be in. -/
def Mode.Proper : Mode → Prop
  | .quoted quote => quote = '\'' ∨ quote = '"'
  | _ => True

theorem proper_afterCode (c : Char) : (Mode.afterCode c).Proper := by
  rcases afterCode_cases c with ⟨hquote, hmode⟩ | hmode
  · rw [hmode]
    exact hquote
  · rw [hmode]
    trivial

theorem Mode.Proper.afterQuoted {quote : Char} (h : (Mode.quoted quote).Proper) (c : Char) :
    (if c = quote then Mode.code else .quoted quote).Proper := by
  split
  · trivial
  · exact h

theorem Mode.Proper.ne_backslash {quote : Char} (h : (Mode.quoted quote).Proper) :
    quote ≠ '\\' := by
  rcases h with rfl | rfl
  · decide
  · decide

theorem proper_afterLineComment (c : Char) :
    (if c = '\n' then Mode.code else .lineComment).Proper := by
  split <;> trivial

attribute [local simp] modeAfter in
theorem modeAfter_quoted {quote c : Char} {rest : List Char} (h : c ≠ '\\' ∨ rest = []) :
    modeAfter (.quoted quote) (c :: rest) =
      modeAfter (if c = quote then .code else .quoted quote) rest := by
  rcases h with h | rfl
  · simp [h]
  · simp

theorem modeAfter_code {c : Char} {rest : List Char} (h : ¬ OpensComment c rest) :
    modeAfter .code (c :: rest) = modeAfter (.afterCode c) rest := by
  rw [modeAfter]
  · rintro r rfl rfl
    exact h (opensComment_iff.2 (.inl ⟨r, rfl, rfl⟩))
  · rintro r rfl rfl
    exact h (opensComment_iff.2 (.inr ⟨r, rfl, rfl⟩))

theorem modeAfter_blockComment {c : Char} {rest : List Char} (h : ¬ ClosesComment c rest) :
    modeAfter .blockComment (c :: rest) = modeAfter .blockComment rest := by
  rw [modeAfter]
  rintro r rfl rfl
  exact h ⟨rfl, rfl⟩

/-- The character is neither part of a mark of comments, but for a first hyphen or slash, nor a
quote, nor a backslash. -/
def Apart (d : Char) : Prop := d ≠ '-' ∧ d ≠ '*' ∧ d ≠ '/' ∧ d ≠ '\'' ∧ d ≠ '"' ∧ d ≠ '\\'

instance (d : Char) : Decidable (Apart d) := inferInstanceAs (Decidable (_ ∧ _))

theorem apart_of_isBlank {d : Char} (h : Text.isBlank d = true) : Apart d := by
  refine ⟨?_, ?_, ?_, ?_, ?_, ?_⟩
  all_goals
    rintro rfl
    revert h
    decide

theorem head?_append_ne {cs : List Char} {d e : Char} (he : d ≠ e) (h : cs.head? ≠ some e)
    (rest : List Char) : (cs ++ d :: rest).head? ≠ some e := by
  cases cs with
  | nil => simpa using he
  | cons c r => exact h

section Borders

variable {d : Char} (hd : Apart d)
include hd

theorem Apart.not_opensComment {c : Char} {cs : List Char} (h : ¬ OpensComment c cs)
    (rest : List Char) : ¬ OpensComment c (cs ++ d :: rest) := by
  rintro (⟨hc, hhead⟩ | ⟨hc, hhead⟩)
  · exact head?_append_ne hd.1 (fun hcs => h (.inl ⟨hc, hcs⟩)) rest hhead
  · exact head?_append_ne hd.2.1 (fun hcs => h (.inr ⟨hc, hcs⟩)) rest hhead

theorem Apart.not_closesComment {c : Char} {cs : List Char} (h : ¬ ClosesComment c cs)
    (rest : List Char) : ¬ ClosesComment c (cs ++ d :: rest) := by
  rintro ⟨hc, hhead⟩
  exact head?_append_ne hd.2.2.1 (fun hcs => h ⟨hc, hcs⟩) rest hhead

theorem Apart.ne_quote {quote : Char} (hquote : (Mode.quoted quote).Proper) : d ≠ quote := by
  obtain ⟨-, -, -, hsingle, hdouble, -⟩ := hd
  rcases hquote with rfl | rfl
  · exact hsingle
  · exact hdouble

/-- A string goes on behind such a character, even where a backslash takes it along. -/
theorem Apart.quoted {quote : Char} (hquote : (Mode.quoted quote).Proper) (rest : List Char) :
    scan (.quoted quote) (d :: rest) = (d, .quoted) :: scan (.quoted quote) rest ∧
      modeAfter (.quoted quote) (d :: rest) = modeAfter (.quoted quote) rest := by
  have hbackslash : d ≠ '\\' := hd.2.2.2.2.2
  rw [scan_quoted (.inl hbackslash), modeAfter_quoted (.inl hbackslash),
    if_neg (hd.ne_quote hquote)]
  exact ⟨rfl, rfl⟩

/-- Behind the front of a text the pass goes on as it would in the mode that the front leaves it
in. -/
theorem scan_append {mode : Mode} (hmode : mode.Proper) (cs rest : List Char) :
    scan mode (cs ++ d :: rest) = scan mode cs ++ scan (modeAfter mode cs) (d :: rest) ∧
      modeAfter mode (cs ++ d :: rest) = modeAfter (modeAfter mode cs) (d :: rest) := by
  fun_induction modeAfter mode cs with
  | case1 mode => exact ⟨rfl, rfl⟩
  | case2 front ih | case3 front ih | case8 front ih =>
    obtain ⟨hscan, hafter⟩ := ih trivial
    exact ⟨congrArg (_ :: _ :: ·) hscan, hafter⟩
  | case4 c front line block ih =>
    have hopens := not_opensComment line block
    obtain ⟨hscan, hafter⟩ := ih (proper_afterCode c)
    rw [List.cons_append, scan_code (hd.not_opensComment hopens rest), scan_code hopens,
      modeAfter_code (hd.not_opensComment hopens rest)]
    exact ⟨congrArg (_ :: ·) hscan, hafter⟩
  | case5 quote c front ih =>
    obtain ⟨hscan, hafter⟩ := ih hmode
    exact ⟨congrArg (_ :: _ :: ·) hscan, hafter⟩
  | case6 quote c front pair ih =>
    obtain ⟨hscan, hafter⟩ := ih (hmode.afterQuoted c)
    by_cases hc : c = '\\'
    · subst hc
      obtain rfl : front = [] := by
        cases front with
        | nil => rfl
        | cons e r => exact (pair e r rfl rfl).elim
      obtain ⟨hquoted, hquoted'⟩ := hd.quoted hmode rest
      rw [if_neg hmode.ne_backslash.symm, modeAfter, hquoted, hquoted', scan_quoted (.inr rfl),
        if_neg hmode.ne_backslash.symm, scan_nil]
      exact ⟨rfl, rfl⟩
    · rw [List.cons_append, scan_quoted (.inl hc), scan_quoted (.inl hc),
        modeAfter_quoted (.inl hc)]
      exact ⟨congrArg (_ :: ·) hscan, hafter⟩
  | case7 c front ih =>
    obtain ⟨hscan, hafter⟩ := ih (proper_afterLineComment c)
    rw [List.cons_append, modeAfter]
    refine ⟨?_, hafter⟩
    by_cases hc : c = '\n'
    · simp only [if_pos hc] at hscan ⊢
      simpa [scan, hc] using hscan
    · simp only [if_neg hc] at hscan ⊢
      simpa [scan, hc] using hscan
  | case9 c front hend ih =>
    have hcloses := SqlEngine.Script.not_closesComment hend
    obtain ⟨hscan, hafter⟩ := ih trivial
    rw [List.cons_append, scan_blockComment (hd.not_closesComment hcloses rest),
      scan_blockComment hcloses, modeAfter_blockComment (hd.not_closesComment hcloses rest)]
    exact ⟨congrArg (_ :: ·) hscan, hafter⟩

end Borders

/-- The mode behind white space. -/
def Mode.afterBlank (mode : Mode) (c : Char) : Mode :=
  if mode = .lineComment ∧ c = '\n' then .code else mode

theorem Mode.Proper.afterBlank {mode : Mode} (h : mode.Proper) (c : Char) :
    (mode.afterBlank c).Proper := by
  rw [Mode.afterBlank]
  split
  · trivial
  · exact h

/-- White space ends no statement, and of the modes it ends the line comment only. -/
theorem scan_blank {mode : Mode} (hmode : mode.Proper) {c : Char} (hc : Text.isBlank c = true) :
    ∃ role : Role, role ≠ .terminator ∧ ∀ rest,
      scan mode (c :: rest) = (c, role) :: scan (mode.afterBlank c) rest ∧
        modeAfter mode (c :: rest) = modeAfter (mode.afterBlank c) rest := by
  have hapart := apart_of_isBlank hc
  cases mode with
  | code =>
    refine ⟨.ofCode c, ?_, fun rest => ?_⟩
    · have hsemicolon : c ≠ ';' := by
        rintro rfl
        revert hc
        decide
      rw [Role.ofCode, if_neg hsemicolon]
      split <;> exact Role.noConfusion
    · have hopens : ¬ OpensComment c rest := not_opensComment_of_isBlank hc
      rw [scan_code hopens, modeAfter_code hopens, afterCode_of_isBlank hc]
      exact ⟨rfl, rfl⟩
  | quoted quote =>
    exact ⟨.quoted, Role.noConfusion, fun rest => hapart.quoted hmode rest⟩
  | lineComment =>
    by_cases hline : c = '\n'
    · subst hline
      exact ⟨.code, Role.noConfusion, fun rest => ⟨rfl, rfl⟩⟩
    · refine ⟨.comment, Role.noConfusion, fun rest => ?_⟩
      rw [scan, modeAfter, if_neg hline, if_neg hline, Mode.afterBlank, if_neg (by simp [hline])]
      exact ⟨rfl, rfl⟩
  | blockComment =>
    refine ⟨.comment, Role.noConfusion, fun rest => ?_⟩
    have hcloses : ¬ ClosesComment c rest := fun h => hapart.2.1 h.1
    exact ⟨scan_blockComment hcloses, modeAfter_blockComment hcloses⟩

theorem afterBlank_of_ne {mode : Mode} {c : Char} (h : mode ≠ .lineComment ∨ c ≠ '\n') :
    mode.afterBlank c = mode := by
  rcases h with h | h
  · exact if_neg fun hboth => h hboth.1
  · exact if_neg fun hboth => h hboth.2

theorem afterBlank_newline (mode : Mode) : mode.afterBlank '\n' ≠ .lineComment := by
  rw [Mode.afterBlank]
  split
  · exact Mode.noConfusion
  · next h => exact fun hline => h ⟨hline, rfl⟩

section Blanks

variable {mode : Mode} (hmode : mode.Proper) {blanks : List Char}
  (hblanks : ∀ c ∈ blanks, Text.isBlank c = true)

include hmode in
theorem proper_modeAfter (cs : List Char) : (modeAfter mode cs).Proper := by
  fun_induction modeAfter mode cs with
  | case1 mode => exact hmode
  | case2 _ ih | case3 _ ih | case8 _ ih | case9 _ _ _ ih => exact ih trivial
  | case4 c _ _ _ ih => exact ih (proper_afterCode c)
  | case5 _ _ _ ih => exact ih hmode
  | case6 quote c _ _ ih => exact ih (hmode.afterQuoted c)
  | case7 c _ ih => exact ih (proper_afterLineComment c)

include hmode hblanks in
/-- White space in front of a text changes no mode, unless a newline in it ends a line comment. -/
theorem modeAfter_blanks (h : mode ≠ .lineComment ∨ '\n' ∉ blanks) (cs : List Char) :
    modeAfter mode (blanks ++ cs) = modeAfter mode cs := by
  induction blanks with
  | nil => rfl
  | cons c rest ih =>
    obtain ⟨hc, hrest⟩ := List.forall_mem_cons.1 hblanks
    obtain ⟨_, -, hscan⟩ := scan_blank hmode hc
    have hsame : mode.afterBlank c = mode := by
      refine afterBlank_of_ne (h.imp_right ?_)
      rintro hline rfl
      exact hline List.mem_cons_self
    rw [List.cons_append, (hscan _).2, hsame]
    exact ih hrest (h.imp_right fun hline hmem => hline (List.mem_cons_of_mem c hmem))

include hmode in
theorem modeAfter_newline (cs rest : List Char) :
    modeAfter mode (cs ++ '\n' :: rest) =
      modeAfter ((modeAfter mode cs).afterBlank '\n') rest := by
  obtain ⟨_, -, hscan⟩ := scan_blank (proper_modeAfter hmode cs) (c := '\n') (by decide)
  rw [(scan_append (by decide) hmode cs rest).2, (hscan rest).2]

include hmode in
/-- A semicolon changes no mode. -/
theorem modeAfter_semicolon (cs : List Char) :
    modeAfter mode (cs ++ [';']) = modeAfter mode cs := by
  have hproper := proper_modeAfter hmode cs
  rw [(scan_append (by decide) hmode cs []).2]
  cases hafter : modeAfter mode cs with
  | code | lineComment | blockComment => rfl
  | quoted quote =>
    rw [hafter] at hproper
    have hapart : Apart ';' := by decide
    exact (hapart.quoted hproper []).2

end Blanks

/-- The first character of a text, one kind of white space for all. -/
def lead (cs : List Char) : Option Char := cs.head?.map fun c => if Text.isBlank c then ' ' else c

theorem lead_eq_none {cs : List Char} : lead cs = none ↔ cs = [] := by
  simp [lead]

theorem lead_of_isBlank {c : Char} (h : Text.isBlank c = true) (rest : List Char) :
    lead (c :: rest) = some ' ' := by
  simp [lead, h]

theorem lead_of_not_blank {c : Char} (h : Text.isBlank c = false) (rest : List Char) :
    lead (c :: rest) = some c := by
  simp [lead, h]

/-- What begins alike begins with the same character, unless that is white space. -/
theorem head?_of_lead {cs ds : List Char} (h : lead cs = lead ds) {e : Char}
    (he : Text.isBlank e = false) (hhead : ds.head? = some e) : cs.head? = some e := by
  obtain ⟨rest, rfl⟩ := List.head?_eq_some_iff.1 hhead
  rw [lead_of_not_blank he] at h
  cases cs with
  | nil => cases h
  | cons c r =>
    by_cases hc : Text.isBlank c = true
    · rw [lead_of_isBlank hc] at h
      cases h
      exact absurd he (by decide)
    · rw [lead_of_not_blank (by simpa using hc)] at h
      exact h

theorem not_opensComment_of_lead {c : Char} {cs ds : List Char} (h : lead ds = lead cs)
    (hopens : ¬ OpensComment c cs) : ¬ OpensComment c ds := by
  rintro (⟨hc, hhead⟩ | ⟨hc, hhead⟩)
  · exact hopens (.inl ⟨hc, head?_of_lead h.symm (by decide) hhead⟩)
  · exact hopens (.inr ⟨hc, head?_of_lead h.symm (by decide) hhead⟩)

theorem not_closesComment_of_lead {c : Char} {cs ds : List Char} (h : lead ds = lead cs)
    (hcloses : ¬ ClosesComment c cs) : ¬ ClosesComment c ds := by
  rintro ⟨hc, hhead⟩
  exact hcloses ⟨hc, head?_of_lead h.symm (by decide) hhead⟩

/-- The pass goes over a character by itself, whatever begins alike behind it. -/
def Steps (mode : Mode) (c : Char) (rest : List Char) (role : Role) (next : Mode) : Prop :=
  ∀ cs, lead cs = lead rest → scan mode (c :: cs) = (c, role) :: scan next cs

/-- The pass goes over two characters together, whatever stands behind them. -/
def StepsTwice (mode : Mode) (c d : Char) (role role' : Role) (next : Mode) : Prop :=
  ∀ cs, scan mode (c :: d :: cs) = (c, role) :: (d, role') :: scan next cs

/-- The pass goes over a character by itself, or over two characters that are no white space. -/
theorem scan_cases {mode : Mode} (hmode : mode.Proper) {c : Char} (hc : Text.isBlank c = false)
    (rest : List Char) :
    (∃ role next, next.Proper ∧ Steps mode c rest role next) ∨
      ∃ d behind role role' next, rest = d :: behind ∧ Text.isBlank d = false ∧ next.Proper ∧
        role ≠ .terminator ∧ role' ≠ .terminator ∧ StepsTwice mode c d role role' next := by
  cases mode with
  | code =>
    by_cases hopens : OpensComment c rest
    · refine .inr ?_
      rcases opensComment_iff.1 hopens with ⟨r, rfl, rfl⟩ | ⟨r, rfl, rfl⟩
      · exact ⟨'-', r, .comment, .comment, .lineComment, rfl, by decide, trivial,
          Role.noConfusion, Role.noConfusion, fun _ => rfl⟩
      · exact ⟨'*', r, .comment, .comment, .blockComment, rfl, by decide, trivial,
          Role.noConfusion, Role.noConfusion, fun _ => rfl⟩
    · exact .inl ⟨.ofCode c, .afterCode c, proper_afterCode c,
        fun cs hcs => scan_code (not_opensComment_of_lead hcs hopens)⟩
  | quoted quote =>
    by_cases hslash : c = '\\'
    · subst hslash
      cases rest with
      | nil =>
        refine .inl ⟨.quoted, .quoted quote, hmode, fun cs hcs => ?_⟩
        rw [lead_eq_none.1 hcs, scan_quoted (.inr rfl), if_neg hmode.ne_backslash.symm]
      | cons d behind =>
        by_cases hd : Text.isBlank d = true
        · -- white space that a backslash takes along is part of the string as it would be alone
          refine .inl ⟨.quoted, .quoted quote, hmode, fun cs hcs => ?_⟩
          rw [lead_of_isBlank hd] at hcs
          cases cs with
          | nil => cases hcs
          | cons e r =>
            have he : Apart e := by
              by_cases he : Text.isBlank e = true
              · exact apart_of_isBlank he
              · rw [lead_of_not_blank (by simpa using he)] at hcs
                cases hcs
                decide
            rw [(he.quoted hmode r).1]
            rfl
        · exact .inr ⟨d, behind, .quoted, .quoted, .quoted quote, rfl, by simpa using hd, hmode,
            Role.noConfusion, Role.noConfusion, fun _ => rfl⟩
    · exact .inl ⟨.quoted, _, hmode.afterQuoted c, fun cs _ => scan_quoted (.inl hslash)⟩
  | lineComment =>
    have hline : c ≠ '\n' := by
      rintro rfl
      revert hc
      decide
    exact .inl ⟨.comment, .lineComment, trivial, fun cs _ => by rw [scan, if_neg hline]⟩
  | blockComment =>
    by_cases hcloses : ClosesComment c rest
    · obtain ⟨rfl, hhead⟩ := hcloses
      obtain ⟨r, rfl⟩ := List.head?_eq_some_iff.1 hhead
      exact .inr ⟨'/', r, .comment, .commentEnd, .code, rfl, by decide, trivial,
        Role.noConfusion, Role.noConfusion, fun _ => rfl⟩
    · exact .inl ⟨.comment, .blockComment, trivial,
        fun cs hcs => scan_blockComment (not_closesComment_of_lead hcs hcloses)⟩

end SqlEngine.Script
