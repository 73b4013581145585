import SqlEngine.Proofs.Script.Lines

/-!
# Thinned white space

Of each run of white space with a newline in it, a squeezed script keeps one newline. Where comments
are taken out of it, these newlines come to stand next to white space that was kept, so that more
than one character may be left of a run. What is left is a thinned text: some white space next to a
newline is missing, but each run still has its place.
-/
namespace SqlEngine.Script

open Text (isBlank trimLeft trimRight trimChars)

/-- Behind a squeezed newline stands no white space. -/
theorem trimLeft_of_squeeze_newline {cs : List Char} (h : squeeze ('\n' :: cs) = '\n' :: cs) :
    trimLeft cs = cs := by
  have htwice : trimLeft (trimLeft (squeeze cs)) = trimLeft (squeeze cs) :=
    List.dropWhile_idempotent isBlank _
  rw [squeeze_newline] at h
  rwa [(List.cons.inj h).2] at htwice

theorem trimLeft_ne_self {c : Char} {cs : List Char} (hc : isBlank c = true) :
    trimLeft (c :: cs) ≠ c :: cs := by
  intro h
  have hshort := (List.dropWhile_suffix (l := cs) isBlank).length_le
  rw [trimLeft_of_isBlank hc] at h
  have hlength := congrArg List.length h
  rw [trimLeft, List.length_cons] at hlength
  omega

theorem length_squeeze_le (cs : List Char) : (squeeze cs).length ≤ cs.length := by
  fun_induction squeeze cs with
  | case1 => exact Nat.le_refl 0
  | case2 rest ih =>
    have hshort := (List.dropWhile_suffix (l := squeeze rest) isBlank).length_le
    simp only [List.length_cons, trimLeft]
    omega
  | case3 c rest hline hdrop ih => exact Nat.le_succ_of_le ih
  | case4 c rest hline hkeep ih => exact Nat.succ_le_succ ih

/-- What is squeezed is squeezed to its end. -/
theorem squeeze_tail {c : Char} {cs : List Char} (h : squeeze (c :: cs) = c :: cs) :
    squeeze cs = cs := by
  by_cases hline : c = '\n'
  · subst hline
    have htrim := trimLeft_of_squeeze_newline h
    rw [squeeze_newline, trimLeft_squeeze, htrim] at h
    exact (List.cons.inj h).2
  · rw [squeeze, if_neg hline] at h
    split at h
    · have hshort := length_squeeze_le cs
      rw [h, List.length_cons] at hshort
      omega
    · exact (List.cons.inj h).2

/-- The second text is the first one, but white space before or behind a newline may be missing. -/
inductive Thinned : List Char → List Char → Prop
  | nil : Thinned [] []
  | keep (c : Char) {cs ds : List Char} (h : Thinned cs ds) : Thinned (c :: cs) (c :: ds)
  | before {c : Char} {cs ds : List Char} (hc : isBlank c = true) (h : Thinned cs ('\n' :: ds)) :
      Thinned (c :: cs) ('\n' :: ds)
  | behind {blanks cs ds : List Char} (hblanks : ∀ c ∈ blanks, isBlank c = true)
      (h : Thinned cs (blanks ++ ds)) : Thinned ('\n' :: cs) ('\n' :: ds)

namespace Thinned

variable {c : Char} {cs ds : List Char}

theorem append {more more' : List Char} (h : Thinned cs ds) (hmore : Thinned more more') :
    Thinned (cs ++ more) (ds ++ more') := by
  induction h with
  | nil => exact hmore
  | keep c h ih => exact .keep c ih
  | before hc h ih => exact .before hc ih
  | behind hblanks h ih =>
    rw [List.append_assoc] at ih
    exact .behind hblanks ih

theorem refl (cs : List Char) : Thinned cs cs := by
  induction cs with
  | nil => exact .nil
  | cons c rest ih => exact .keep c ih

theorem prepend (front : List Char) (h : Thinned cs ds) : Thinned (front ++ cs) (front ++ ds) :=
  (refl front).append h

theorem lead_eq (h : Thinned cs ds) : lead ds = lead cs := by
  cases h with
  | nil | keep | behind => rfl
  | before hc => rw [lead_of_isBlank hc, lead_of_isBlank (by decide)]

theorem eq_nil_iff (h : Thinned cs ds) : ds = [] ↔ cs = [] := by
  rw [← lead_eq_none, ← lead_eq_none, h.lead_eq]

/-- A character that is not white space stays in its place. -/
theorem exists_cons (h : Thinned (c :: cs) ds) (hc : isBlank c = false) :
    ∃ rest, ds = c :: rest ∧ Thinned cs rest := by
  cases h with
  | keep _ h => exact ⟨_, rfl, h⟩
  | before hblank =>
    rw [hc] at hblank
    cases hblank
  | behind => exact absurd hc (by decide)

/-- A text is cut in two at a character that is not white space. -/
theorem exists_append {front : List Char} (hc : isBlank c = false)
    (h : Thinned (front ++ c :: cs) ds) :
    ∃ front' rest, ds = front' ++ c :: rest ∧ Thinned front front' ∧ Thinned cs rest := by
  induction front generalizing ds with
  | nil =>
    obtain ⟨rest, rfl, hrest⟩ := h.exists_cons hc
    exact ⟨[], rest, rfl, .nil, hrest⟩
  | cons d front ih =>
    have hnewline : c ≠ '\n' := ne_newline_of_not_blank hc
    cases h with
    | keep _ h =>
      obtain ⟨front', rest, rfl, hfront, hrest⟩ := ih h
      exact ⟨d :: front', rest, rfl, .keep d hfront, hrest⟩
    | before hd h =>
      obtain ⟨front', rest, hcut, hfront, hrest⟩ := ih h
      cases front' with
      | nil => exact absurd (List.cons.inj hcut).1 (Ne.symm hnewline)
      | cons e front' =>
        cases hcut
        exact ⟨'\n' :: front', rest, rfl, .before hd hfront, hrest⟩
    | @behind blanks _ ds hblanks h =>
      obtain ⟨front', rest, hcut, hfront, hrest⟩ := ih h
      rcases List.append_eq_append_iff.1 hcut with ⟨more, rfl, rfl⟩ | ⟨more, rfl, hmore⟩
      · exact ⟨'\n' :: more, rest, rfl, .behind hblanks hfront, hrest⟩
      · cases more with
        | nil =>
          rw [List.nil_append] at hmore
          rw [List.append_nil] at hblanks
          rw [← List.append_nil front'] at hfront
          exact ⟨['\n'], rest, congrArg _ hmore.symm, .behind hblanks hfront, hrest⟩
        | cons e more =>
          cases hmore
          rw [hblanks c (by simp)] at hc
          cases hc

theorem trimLeft (h : Thinned cs ds) : Thinned (trimLeft cs) (trimLeft ds) := by
  have hnewline : isBlank '\n' = true := by decide
  induction h with
  | nil => exact .nil
  | keep c h ih =>
    by_cases hc : isBlank c = true
    · rw [trimLeft_of_isBlank hc, trimLeft_of_isBlank hc]
      exact ih
    · have hc' : isBlank c = false := by simpa using hc
      rw [trimLeft_of_not_blank hc', trimLeft_of_not_blank hc']
      exact .keep c h
  | before hc h ih =>
    rw [trimLeft_of_isBlank hc]
    exact ih
  | behind hblanks h ih =>
    have hnone : Text.trimLeft _ = [] := List.dropWhile_eq_nil_iff.2 hblanks
    rw [trimLeft_append, if_pos hnone] at ih
    rw [trimLeft_of_isBlank hnewline, trimLeft_of_isBlank hnewline]
    exact ih

theorem trimRight (h : Thinned cs ds) : Thinned (trimRight cs) (trimRight ds) := by
  have hnewline : isBlank '\n' = true := by decide
  induction h with
  | nil => exact .nil
  | @keep c cs ds h ih =>
    rw [trimRight_cons, trimRight_cons]
    by_cases hcut : Text.trimRight cs = [] ∧ isBlank c = true
    · rw [if_pos hcut, if_pos ⟨ih.eq_nil_iff.2 hcut.1, hcut.2⟩]
      exact .nil
    · rw [if_neg hcut, if_neg fun hboth => hcut ⟨ih.eq_nil_iff.1 hboth.1, hboth.2⟩]
      exact .keep c ih
  | @before c cs ds hc h ih =>
    rw [trimRight_cons]
    by_cases hnil : Text.trimRight cs = []
    · rw [if_pos ⟨hnil, hc⟩, ih.eq_nil_iff.2 hnil]
      exact .nil
    · have hkept : ¬ (Text.trimRight ds = [] ∧ isBlank '\n' = true) := by
        intro hcut
        refine hnil (ih.eq_nil_iff.1 ?_)
        rw [trimRight_cons, if_pos hcut]
      rw [trimRight_cons, if_neg hkept] at ih ⊢
      rw [if_neg fun hboth => hnil hboth.1]
      exact .before hc ih
  | @behind blanks cs ds hblanks h ih =>
    have hnone : Text.trimRight blanks = [] := List.rdropWhile_eq_nil_iff.2 hblanks
    rw [trimRight_append, hnone] at ih
    rw [trimRight_cons, trimRight_cons]
    by_cases hnil : Text.trimRight ds = []
    · rw [if_pos hnil] at ih
      rw [if_pos ⟨ih.eq_nil_iff.1 rfl, hnewline⟩, if_pos ⟨hnil, hnewline⟩]
      exact .nil
    · rw [if_neg hnil] at ih
      have hsome : Text.trimRight cs ≠ [] := fun hcs =>
        hnil (List.append_eq_nil_iff.1 (ih.eq_nil_iff.2 hcs)).2
      rw [if_neg fun hboth => hsome hboth.1, if_neg fun hboth => hnil hboth.1]
      exact .behind hblanks ih

theorem trimChars (h : Thinned cs ds) : Thinned (trimChars cs) (trimChars ds) :=
  h.trimLeft.trimRight

theorem wordsFrom_front {blanks : List Char} (hblanks : ∀ c ∈ blanks, isBlank c = true)
    (cs : List Char) : Text.wordsFrom [] (blanks ++ cs) = Text.wordsFrom [] cs := by
  induction blanks with
  | nil => rfl
  | cons c rest ih =>
    obtain ⟨hc, hrest⟩ := List.forall_mem_cons.1 hblanks
    rw [List.cons_append, Text.wordsFrom, if_pos hc]
    exact ih hrest

/-- The words stay as they are. -/
theorem wordsFrom_eq (h : Thinned cs ds) (word : List Char) :
    Text.wordsFrom word ds = Text.wordsFrom word cs := by
  have hnewline : isBlank '\n' = true := by decide
  induction h generalizing word with
  | nil => rfl
  | keep c h ih => simp only [Text.wordsFrom, ih]
  | before hc h ih =>
    have hnone := ih []
    rw [Text.wordsFrom, if_pos hnewline, if_pos List.isEmpty_nil] at hnone
    rw [Text.wordsFrom, Text.wordsFrom, if_pos hnewline, if_pos hc, hnone]
  | behind hblanks h ih =>
    have hnone := ih []
    rw [wordsFrom_front hblanks] at hnone
    rw [Text.wordsFrom, Text.wordsFrom, if_pos hnewline, if_pos hnewline, hnone]

/-- Where no white space can be squeezed, none is missing. -/
theorem eq_of_squeeze (h : Thinned cs ds) (hcs : squeeze cs = cs) : ds = cs := by
  induction h with
  | nil => rfl
  | keep c h ih => rw [ih (squeeze_tail hcs)]
  | @before c cs ds hc h ih =>
    have htail := squeeze_tail hcs
    have hnext := ih htail
    rw [← hnext] at hcs htail
    by_cases hline : c = '\n'
    · rw [hline] at hcs
      exact absurd (trimLeft_of_squeeze_newline hcs) (trimLeft_ne_self (by decide))
    · rw [squeeze_dropped hc hline (by rw [htail]; rfl), htail] at hcs
      exact absurd hcs List.ne_cons_self
  | @behind blanks cs ds hblanks h ih =>
    have hnext := ih (squeeze_tail hcs)
    rw [← hnext] at hcs ⊢
    cases blanks with
    | nil => rfl
    | cons b blanks =>
      have hb : isBlank b = true := hblanks b List.mem_cons_self
      exact absurd (trimLeft_of_squeeze_newline hcs) (trimLeft_ne_self hb)

end Thinned

section Comments

variable {mode : Mode} {c : Char} {cs : List Char}

/-- What is left of white space in a text without its comments. -/
def Mode.shown : Mode → Char → List Char
  | .lineComment, c => if c = '\n' then [c] else []
  | .blockComment, _ => []
  | .code, c | .quoted _, c => [c]

theorem shown_cases (mode : Mode) (c : Char) : mode.shown c = [] ∨ mode.shown c = [c] := by
  cases mode with
  | code | quoted => exact .inr rfl
  | blockComment => exact .inl rfl
  | lineComment =>
    rw [Mode.shown]
    split
    · exact .inr rfl
    · exact .inl rfl

theorem shown_newline (h : mode ≠ .blockComment) : mode.shown '\n' = ['\n'] := by
  cases mode with
  | code | quoted | lineComment => rfl
  | blockComment => exact absurd rfl h

theorem clean_blank (hmode : mode.Proper) (hc : isBlank c = true) (rest : List Char) :
    clean mode (c :: rest) = mode.shown c ++ clean (mode.afterBlank c) rest := by
  cases mode with
  | code =>
    rw [clean_code (not_opensComment_of_isBlank hc), afterCode_of_isBlank hc]
    rfl
  | quoted quote =>
    rw [clean, ((apart_of_isBlank hc).quoted hmode rest).1]
    rfl
  | lineComment =>
    rw [clean_lineComment, Mode.shown, Mode.afterBlank]
    by_cases hline : c = '\n'
    · simp [hline]
    · simp [hline]
  | blockComment =>
    rw [clean_blockComment fun h => (apart_of_isBlank hc).2.1 h.1]
    rfl

/-- What is left of white space is white space. -/
theorem isBlank_of_mem_clean (hmode : mode.Proper) (hcs : ∀ c ∈ cs, isBlank c = true) :
    ∀ c ∈ clean mode cs, isBlank c = true := by
  induction cs generalizing mode with
  | nil => simp
  | cons d rest ih =>
    obtain ⟨hd, hrest⟩ := List.forall_mem_cons.1 hcs
    rw [clean_blank hmode hd]
    refine List.forall_mem_append.2 ⟨?_, ih (hmode.afterBlank d) hrest⟩
    rcases shown_cases mode d with hshown | hshown
    · simp [hshown]
    · simpa [hshown] using hd

/-- White space at the front of a text is left as white space, unless it is part of a comment. -/
theorem clean_trimLeft (hmode : mode.Proper) (hline : mode ≠ .lineComment) (cs : List Char) :
    ∃ blanks, (∀ c ∈ blanks, isBlank c = true) ∧
      clean mode cs = blanks ++ clean mode (trimLeft cs) ∧
        (mode = .blockComment → blanks = []) := by
  induction cs with
  | nil => exact ⟨[], by simp, rfl, fun _ => rfl⟩
  | cons c rest ih =>
    by_cases hc : isBlank c = true
    · obtain ⟨blanks, hblanks, hclean, hblock⟩ := ih
      rw [trimLeft_of_isBlank hc, clean_blank hmode hc, afterBlank_of_ne (.inl hline), hclean]
      refine ⟨mode.shown c ++ blanks, ?_, (List.append_assoc ..).symm, ?_⟩
      · refine List.forall_mem_append.2 ⟨?_, hblanks⟩
        rcases shown_cases mode c with hshown | hshown
        · simp [hshown]
        · simpa [hshown] using hc
      · rintro rfl
        exact hblock rfl
    · rw [trimLeft_of_not_blank (by simpa using hc)]
      exact ⟨[], by simp, rfl, fun _ => rfl⟩

theorem clean_cons {next : Mode} {role : Role} {rest : List Char}
    (h : scan mode (c :: cs) = (c, role) :: scan next rest) :
    clean mode (c :: cs) = (uncommented (c, role)).toList ++ clean next rest := by
  rw [clean, h, List.filterMap_cons]
  cases uncommented (c, role) <;> rfl

theorem clean_cons_cons {d : Char} {next : Mode} {role role' : Role} {rest : List Char}
    (h : scan mode (c :: cs) = (c, role) :: (d, role') :: scan next rest) :
    clean mode (c :: cs) =
      ((uncommented (c, role)).toList ++ (uncommented (d, role')).toList) ++ clean next rest := by
  rw [clean, h, List.filterMap_cons, List.filterMap_cons]
  cases uncommented (c, role) <;> cases uncommented (d, role') <;> rfl

/-- What is left of a squeezed text without its comments is thinned. -/
theorem thinned_clean {mode : Mode} (hmode : mode.Proper) (cs : List Char) :
    Thinned (clean mode cs) (clean mode (squeeze cs)) := by
  match cs with
  | [] =>
    rw [squeeze, clean_nil]
    exact .nil
  | c :: rest =>
    by_cases hc : isBlank c = true
    · have ih := thinned_clean (hmode.afterBlank c) rest
      rw [clean_blank hmode hc]
      by_cases hline : c = '\n'
      · subst hline
        obtain ⟨blanks, hblanks, hclean, hblock⟩ :=
          clean_trimLeft (hmode.afterBlank '\n') (afterBlank_newline mode) (squeeze rest)
        rw [hclean] at ih
        rw [squeeze_newline, clean_blank hmode hc]
        by_cases hcomment : mode = .blockComment
        · subst hcomment
          rw [hblock rfl] at ih
          exact ih
        · rw [shown_newline hcomment]
          exact .behind hblanks ih
      · have hsame : mode.afterBlank c = mode := afterBlank_of_ne (.inr hline)
        rw [hsame] at ih ⊢
        by_cases hnext : (squeeze rest).head? = some '\n'
        · rw [squeeze_dropped hc hline hnext]
          obtain ⟨behind, hbehind⟩ := List.head?_eq_some_iff.1 hnext
          rw [hbehind] at ih ⊢
          rcases shown_cases mode c with hshown | hshown
          · rw [hshown]
            exact ih
          · have hcomment : mode ≠ .blockComment := by
              rintro rfl
              cases hshown
            rw [clean_blank hmode (by decide), shown_newline hcomment] at ih ⊢
            rw [hshown]
            exact .before hc ih
        · rw [squeeze_kept hline hnext, clean_blank hmode hc, hsame]
          exact ih.prepend _
    · have hc' : isBlank c = false := by simpa using hc
      rw [squeeze_of_not_blank hc']
      rcases scan_cases hmode hc' rest with ⟨role, next, hnext, hstep⟩ |
        ⟨d, behind, role, role', next, rfl, hd, hnext, -, -, hstep⟩
      · have ih := thinned_clean hnext rest
        rw [clean_cons (hstep rest rfl), clean_cons (hstep _ (lead_squeeze rest))]
        exact ih.prepend _
      · have ih := thinned_clean hnext behind
        rw [squeeze_of_not_blank hd, clean_cons_cons (hstep behind), clean_cons_cons (hstep _)]
        exact ih.prepend _
termination_by cs.length

theorem trimChars_append_blanks {blanks : List Char} (h : ∀ c ∈ blanks, isBlank c = true)
    (cs : List Char) : trimChars (cs ++ blanks) = trimChars cs := by
  have hnone : trimRight blanks = [] := List.rdropWhile_eq_nil_iff.2 h
  have hcut : trimRight (cs ++ blanks) = trimRight cs := by rw [trimRight_append, if_pos hnone]
  calc trimChars (cs ++ blanks)
    _ = trimLeft (trimRight (cs ++ blanks)) := (trimLeft_trimRight _).symm
    _ = trimChars cs := by
      rw [hcut, trimLeft_trimRight]
      rfl

theorem trimChars_blanks_append {blanks : List Char} (h : ∀ c ∈ blanks, isBlank c = true)
    (cs : List Char) : trimChars (blanks ++ cs) = trimChars cs := by
  have hnone : trimLeft blanks = [] := List.dropWhile_eq_nil_iff.2 h
  rw [trimChars, trimLeft_append, if_pos hnone]
  rfl

/-- Without its comments a trimmed text is what the text is without them. -/
theorem stripChars_trimChars (cs : List Char) : stripChars (trimChars cs) = stripChars cs := by
  have hcode : Mode.code.Proper := trivial
  obtain ⟨before, hbefore, hleft, -⟩ := clean_trimLeft hcode Mode.noConfusion cs
  obtain ⟨behind, hbehind, hright⟩ := Text.trimRight_decompose (trimLeft cs)
  have hkept : trimRight (trimLeft cs) = trimChars cs := rfl
  have hcut : ∃ blanks, (∀ c ∈ blanks, isBlank c = true) ∧
      clean .code (trimLeft cs) = clean .code (trimChars cs) ++ blanks := by
    rw [hkept] at hright
    cases behind with
    | nil => exact ⟨[], by simp, by rw [hright, List.append_nil, List.append_nil]⟩
    | cons d rest =>
      have hd : Apart d := apart_of_isBlank (hbehind d List.mem_cons_self)
      have hproper := proper_modeAfter hcode (trimChars cs)
      refine ⟨_, isBlank_of_mem_clean hproper hbehind, ?_⟩
      rw [hright, clean, (scan_append hd hcode (trimChars cs) rest).1, List.filterMap_append]
      rfl
  obtain ⟨blanks, hblanks, hclean⟩ := hcut
  calc stripChars (trimChars cs)
    _ = trimChars (clean .code (trimChars cs)) := rfl
    _ = trimChars (clean .code (trimLeft cs)) := by
      rw [hclean, trimChars_append_blanks hblanks]
    _ = trimChars (clean .code cs) := by rw [hleft, trimChars_blanks_append hbefore]

/-- Without its comments a text with its lines trimmed is what the text is without them, thinned. -/
theorem thinned_stripChars (cs : List Char) :
    Thinned (stripChars cs) (stripChars (tidyChars cs)) := by
  have hcode : Mode.code.Proper := trivial
  rw [tidyChars, stripChars_trimChars]
  exact (thinned_clean hcode cs).trimChars

end Comments

end SqlEngine.Script
