import Mathlib.Data.List.DropRight
import SqlEngine.Proofs.Script.Splitting
import SqlEngine.Proofs.Script.Stripping

/-!
# Scripts with their lines trimmed

When the lines of a script are trimmed and the empty ones left out, each run of white space with a
newline in it comes down to one newline. The pass over the script marks what is left as before, so
the statements are those of the script, each with its own lines trimmed. White space in a string is
no exception: where a string goes over the end of a line, it is another string afterwards.
-/
namespace SqlEngine.Script

open Text (isBlank trimLeft trimRight trimChars)

/-- Characters with each run of white space with a newline in it made into one newline. -/
def squeeze : List Char → List Char
  | [] => []
  | c :: rest =>
    if c = '\n' then '\n' :: trimLeft (squeeze rest)
    else if isBlank c = true ∧ (squeeze rest).head? = some '\n' then squeeze rest
    else c :: squeeze rest

/-- Characters with their lines trimmed and without empty lines. -/
def tidyChars (cs : List Char) : List Char := trimChars (squeeze cs)

/-- A text with its lines trimmed and without empty lines. -/
def tidy (s : String) : String := String.ofList (tidyChars s.toList)

variable {c d : Char} {cs rest : List Char}

theorem ne_newline_of_not_blank (hc : isBlank c = false) : c ≠ '\n' := by
  rintro rfl
  revert hc
  decide

theorem squeeze_newline (rest : List Char) :
    squeeze ('\n' :: rest) = '\n' :: trimLeft (squeeze rest) := by
  rw [squeeze, if_pos rfl]

theorem squeeze_dropped (hc : isBlank c = true) (hline : c ≠ '\n')
    (h : (squeeze rest).head? = some '\n') : squeeze (c :: rest) = squeeze rest := by
  rw [squeeze, if_neg hline, if_pos ⟨hc, h⟩]

theorem squeeze_kept (hline : c ≠ '\n') (h : (squeeze rest).head? ≠ some '\n') :
    squeeze (c :: rest) = c :: squeeze rest := by
  rw [squeeze, if_neg hline, if_neg (fun hboth => h hboth.2)]

theorem squeeze_of_not_blank (hc : isBlank c = false) :
    squeeze (c :: rest) = c :: squeeze rest := by
  rw [squeeze, if_neg (ne_newline_of_not_blank hc), if_neg (by simp [hc])]

/-- What is left begins like the text: no run of white space goes away. -/
theorem lead_squeeze (cs : List Char) : lead (squeeze cs) = lead cs := by
  induction cs with
  | nil => rfl
  | cons c rest ih =>
    by_cases hc : isBlank c = true
    · rw [lead_of_isBlank hc]
      by_cases hline : c = '\n'
      · rw [hline, squeeze_newline, lead_of_isBlank (by decide)]
      · by_cases hnext : (squeeze rest).head? = some '\n'
        · obtain ⟨behind, hbehind⟩ := List.head?_eq_some_iff.1 hnext
          rw [squeeze_dropped hc hline hnext, hbehind, lead_of_isBlank (by decide)]
        · rw [squeeze_kept hline hnext, lead_of_isBlank hc]
    · have hc' : isBlank c = false := by simpa using hc
      rw [squeeze_of_not_blank hc', lead_of_not_blank hc', lead_of_not_blank hc']

theorem trimLeft_of_isBlank (hc : isBlank c = true) : trimLeft (c :: rest) = trimLeft rest := by
  rw [trimLeft, List.dropWhile_cons, if_pos hc]
  rfl

theorem trimLeft_of_not_blank (hc : isBlank c = false) : trimLeft (c :: rest) = c :: rest := by
  rw [trimLeft, List.dropWhile_cons, if_neg (by simp [hc])]

theorem trimLeft_squeeze (cs : List Char) : trimLeft (squeeze cs) = squeeze (trimLeft cs) := by
  induction cs with
  | nil => rfl
  | cons c rest ih =>
    by_cases hc : isBlank c = true
    · rw [trimLeft_of_isBlank hc, ← ih]
      by_cases hline : c = '\n'
      · rw [hline, squeeze_newline, trimLeft_of_isBlank (by decide)]
        exact List.dropWhile_idempotent isBlank _
      · by_cases hnext : (squeeze rest).head? = some '\n'
        · rw [squeeze_dropped hc hline hnext]
        · rw [squeeze_kept hline hnext, trimLeft_of_isBlank hc]
    · have hc' : isBlank c = false := by simpa using hc
      rw [squeeze_of_not_blank hc', trimLeft_of_not_blank hc', trimLeft_of_not_blank hc',
        squeeze_of_not_blank hc']

theorem trimLeft_append (cs ds : List Char) :
    trimLeft (cs ++ ds) = if trimLeft cs = [] then trimLeft ds else trimLeft cs ++ ds := by
  rw [trimLeft, List.dropWhile_append]
  by_cases hnil : trimLeft cs = []
  · rw [if_pos hnil]
    exact if_pos (List.isEmpty_iff.2 hnil)
  · rw [if_neg hnil]
    exact if_neg (mt List.isEmpty_iff.1 hnil)

theorem trimRight_append (cs ds : List Char) :
    trimRight (cs ++ ds) = if trimRight ds = [] then trimRight cs else cs ++ trimRight ds := by
  have hsplit : trimRight (cs ++ ds) = (trimLeft (ds.reverse ++ cs.reverse)).reverse := by
    rw [trimRight, List.reverse_append]
  have hkept : trimRight ds = (trimLeft ds.reverse).reverse := rfl
  by_cases hnil : trimLeft ds.reverse = []
  · rw [hsplit, hkept, trimLeft_append, hnil]
    rfl
  · rw [hsplit, hkept, trimLeft_append, if_neg hnil]
    simp [hnil]

theorem trimRight_cons (c : Char) (cs : List Char) :
    trimRight (c :: cs) =
      if trimRight cs = [] ∧ isBlank c = true then [] else c :: trimRight cs := by
  have hone : trimRight [c] = if isBlank c = true then [] else [c] := by
    by_cases hc : isBlank c = true <;> simp [trimRight, trimLeft, hc]
  have happend := trimRight_append [c] cs
  rw [hone] at happend
  refine happend.trans ?_
  by_cases hnil : trimRight cs = []
  · simp [hnil]
  · simp [hnil]

theorem head?_trimRight (h : trimRight cs ≠ []) : (trimRight cs).head? = cs.head? := by
  obtain ⟨blanks, -, hsplit⟩ := Text.trimRight_decompose cs
  cases hkept : trimRight cs with
  | nil => exact absurd hkept h
  | cons d behind =>
    rw [hkept] at hsplit
    rw [hsplit]
    rfl

theorem trimLeft_trimRight (cs : List Char) :
    trimLeft (trimRight cs) = trimRight (trimLeft cs) := by
  induction cs with
  | nil => rfl
  | cons c rest ih =>
    by_cases hc : isBlank c = true
    · rw [trimLeft_of_isBlank hc, ← ih, trimRight_cons]
      split
      · next hnil =>
        rw [hnil.1]
      · rw [trimLeft_of_isBlank hc]
    · have hc' : isBlank c = false := by simpa using hc
      rw [trimLeft_of_not_blank hc', trimRight_cons, if_neg (by simp [hc']),
        trimLeft_of_not_blank hc']

theorem trimLeft_trimRight_ne_nil (h : trimRight cs ≠ []) : trimLeft (trimRight cs) ≠ [] := by
  intro hnil
  have hblank : ∀ c ∈ trimRight cs, isBlank c = true := List.dropWhile_eq_nil_iff.1 hnil
  have hlast : ¬ isBlank ((trimRight cs).getLast h) = true := List.rdropWhile_last_not isBlank cs h
  exact hlast (hblank _ (List.getLast_mem h))

/-- A character in front of squeezed text, with the white space at its end cut off. -/
def settleChar (c : Char) (kept : List Char) : List Char :=
  if kept = [] ∧ isBlank c = true then []
  else if c = '\n' then '\n' :: trimLeft kept
  else if isBlank c = true ∧ kept.head? = some '\n' then kept
  else c :: kept

theorem trimRight_squeeze_cons (c : Char) (rest : List Char) :
    trimRight (squeeze (c :: rest)) = settleChar c (trimRight (squeeze rest)) := by
  by_cases hc : isBlank c = true
  · by_cases hnil : trimRight (squeeze rest) = []
    · rw [settleChar, if_pos ⟨hnil, hc⟩]
      by_cases hline : c = '\n'
      · rw [hline, squeeze_newline, trimRight_cons, ← trimLeft_trimRight, hnil, if_pos]
        exact ⟨rfl, by decide⟩
      · by_cases hnext : (squeeze rest).head? = some '\n'
        · rw [squeeze_dropped hc hline hnext, hnil]
        · rw [squeeze_kept hline hnext, trimRight_cons, if_pos ⟨hnil, hc⟩]
    · rw [settleChar, if_neg fun hboth => hnil hboth.1, head?_trimRight hnil]
      by_cases hline : c = '\n'
      · rw [if_pos hline, hline, squeeze_newline, trimRight_cons, ← trimLeft_trimRight,
          if_neg fun hboth => trimLeft_trimRight_ne_nil hnil hboth.1]
      · rw [if_neg hline]
        by_cases hnext : (squeeze rest).head? = some '\n'
        · rw [squeeze_dropped hc hline hnext, if_pos ⟨hc, hnext⟩]
        · rw [squeeze_kept hline hnext, trimRight_cons, if_neg fun hboth => hnil hboth.1,
            if_neg fun hboth => hnext hboth.2]
  · have hc' : isBlank c = false := by simpa using hc
    rw [squeeze_of_not_blank hc', trimRight_cons, if_neg fun hboth => hc hboth.2, settleChar,
      if_neg fun hboth => hc hboth.2, if_neg (ne_newline_of_not_blank hc'),
      if_neg fun hboth => hc hboth.1]

theorem trimRight_squeeze_concat (hd : isBlank d = true) (cs : List Char) :
    trimRight (squeeze (cs ++ [d])) = trimRight (squeeze cs) := by
  induction cs with
  | nil =>
    have hnil : trimRight (squeeze []) = [] := rfl
    rw [List.nil_append, trimRight_squeeze_cons, hnil, settleChar, if_pos ⟨rfl, hd⟩]
  | cons c rest ih =>
    rw [List.cons_append, trimRight_squeeze_cons, trimRight_squeeze_cons, ih]

theorem trimRight_squeeze_append {blanks : List Char} (h : ∀ c ∈ blanks, isBlank c = true)
    (cs : List Char) : trimRight (squeeze (cs ++ blanks)) = trimRight (squeeze cs) := by
  induction blanks using List.reverseRecOn with
  | nil => rw [List.append_nil]
  | append_singleton front d ih =>
    rw [← List.append_assoc, trimRight_squeeze_concat (h d (by simp))]
    exact ih fun c hc => h c (List.mem_append_left _ hc)

theorem tidyChars_eq (cs : List Char) : tidyChars cs = trimRight (squeeze (trimLeft cs)) := by
  rw [tidyChars, trimChars, trimLeft_squeeze]

/-- White space at the two ends makes no difference. -/
theorem tidyChars_trimChars (cs : List Char) : tidyChars (trimChars cs) = tidyChars cs := by
  obtain ⟨blanks, hblanks, hsplit⟩ := Text.trimRight_decompose (trimLeft cs)
  have hright : trimRight (squeeze (trimLeft cs)) = trimRight (squeeze (trimChars cs)) := by
    conv_lhs => rw [hsplit]
    exact trimRight_squeeze_append hblanks _
  rw [tidyChars_eq, tidyChars_eq, Text.trimLeft_trimChars, hright]

theorem tidyChars_eq_nil : tidyChars cs = [] ↔ trimChars cs = [] := by
  rw [← tidyChars_trimChars, tidyChars_eq, Text.trimLeft_trimChars]
  constructor
  · intro h
    cases hkept : trimChars cs with
    | nil => rfl
    | cons d behind =>
      have hd : isBlank d = false := (Text.ends_trimChars cs).1 d (by rw [hkept]; rfl)
      rw [hkept, squeeze_of_not_blank hd, trimRight_cons, if_neg (by simp [hd])] at h
      cases h
  · intro h
    rw [h]
    rfl

section Stretches

variable {mode : Mode} {piece : List Char} {pieces : List (List Char)}

theorem exists_cut (marked : List (Char × Role)) :
    ∃ piece pieces, cut marked = piece :: pieces :=
  List.exists_cons_of_ne_nil (cut_ne_nil marked)

theorem cut_cons {role : Role} (hrole : role ≠ .terminator) {marked : List (Char × Role)}
    (h : cut marked = piece :: pieces) :
    cut ((c, role) :: marked) = (c :: piece) :: pieces := by
  rw [cut, if_neg hrole, h]

theorem exists_scan_cons (mode : Mode) (c : Char) (rest : List Char) :
    ∃ role marked, scan mode (c :: rest) = (c, role) :: marked := by
  have hchars := map_fst_scan mode (c :: rest)
  cases hscan : scan mode (c :: rest) with
  | nil =>
    rw [hscan] at hchars
    cases hchars
  | cons p marked =>
    rw [hscan, List.map_cons] at hchars
    obtain ⟨d, role⟩ := p
    obtain ⟨rfl, -⟩ := List.cons.inj hchars
    exact ⟨role, marked, rfl⟩

/-- The first stretch is empty or begins with the first character. -/
theorem first_stretch (h : cut (scan mode (c :: rest)) = piece :: pieces) :
    c = ';' ∧ piece = [] ∨ ∃ behind, piece = c :: behind := by
  obtain ⟨role, marked, hscan⟩ := exists_scan_cons mode c rest
  by_cases hrole : role = .terminator
  · have hmem : (c, role) ∈ scan mode (c :: rest) := by
      rw [hscan]
      exact List.mem_cons_self
    have hc : c = ';' := eq_semicolon_of_mem_scan mode (c :: rest) _ hmem hrole
    rw [hscan, cut, if_pos hrole] at h
    cases h
    exact .inl ⟨hc, rfl⟩
  · obtain ⟨first, others, hcut⟩ := exists_cut marked
    rw [hscan, cut_cons hrole hcut] at h
    cases h
    exact .inr ⟨first, rfl⟩

theorem first_newline (h : cut (scan mode cs) = piece :: pieces) :
    cs.head? = some '\n' ↔ piece.head? = some '\n' := by
  cases cs with
  | nil =>
    rw [scan_nil] at h
    cases h
    rfl
  | cons c rest =>
    rcases first_stretch h with ⟨rfl, rfl⟩ | ⟨behind, rfl⟩
    · simp
    · rfl

/-- White space at the front is part of the first stretch, and no other one changes without it. -/
theorem cut_scan_trimLeft (hmode : mode.Proper) (hline : mode ≠ .lineComment)
    (h : cut (scan mode cs) = piece :: pieces) :
    cut (scan mode (trimLeft cs)) = trimLeft piece :: pieces := by
  induction cs generalizing piece with
  | nil =>
    rw [scan_nil] at h
    cases h
    rfl
  | cons c rest ih =>
    by_cases hc : isBlank c = true
    · obtain ⟨role, hrole, hscan⟩ := scan_blank hmode hc
      have hsame : mode.afterBlank c = mode := afterBlank_of_ne (.inl hline)
      obtain ⟨first, others, hcut⟩ := exists_cut (scan mode rest)
      rw [(hscan rest).1, hsame, cut_cons hrole hcut] at h
      cases h
      rw [trimLeft_of_isBlank hc, trimLeft_of_isBlank hc]
      exact ih hcut
    · have hc' : isBlank c = false := by simpa using hc
      rw [trimLeft_of_not_blank hc', h]
      rcases first_stretch h with ⟨-, rfl⟩ | ⟨behind, rfl⟩
      · rfl
      · rw [trimLeft_of_not_blank hc']

/-- A squeezed script is cut where the script is cut, and its stretches are those of the script,
squeezed. -/
theorem cut_scan_squeeze {mode : Mode} (hmode : mode.Proper) (cs : List Char) :
    cut (scan mode (squeeze cs)) = (cut (scan mode cs)).map squeeze := by
  match cs with
  | [] =>
    rw [squeeze, scan_nil]
    rfl
  | c :: rest =>
    by_cases hc : isBlank c = true
    · obtain ⟨role, hrole, hscan⟩ := scan_blank hmode hc
      have ih := cut_scan_squeeze (hmode.afterBlank c) rest
      obtain ⟨piece, pieces, hcut⟩ := exists_cut (scan (mode.afterBlank c) rest)
      rw [hcut, List.map_cons] at ih
      rw [(hscan rest).1, cut_cons hrole hcut, List.map_cons]
      by_cases hline : c = '\n'
      · subst hline
        rw [squeeze_newline, squeeze_newline, (hscan _).1]
        exact cut_cons hrole
          (cut_scan_trimLeft (hmode.afterBlank '\n') (afterBlank_newline mode) ih)
      · have hsame : mode.afterBlank c = mode := afterBlank_of_ne (.inr hline)
        rw [hsame] at ih hscan
        by_cases hnext : (squeeze rest).head? = some '\n'
        · rw [squeeze_dropped hc hline hnext, squeeze_dropped hc hline ((first_newline ih).1 hnext)]
          exact ih
        · rw [squeeze_kept hline hnext,
            squeeze_kept hline fun hpiece => hnext ((first_newline ih).2 hpiece), (hscan _).1]
          exact cut_cons hrole ih
    · have hc' : isBlank c = false := by simpa using hc
      rw [squeeze_of_not_blank hc']
      rcases scan_cases hmode hc' rest with ⟨role, next, hnext, hstep⟩ |
        ⟨d, behind, role, role', next, rfl, hd, hnext, hrole, hrole', hstep⟩
      · have ih := cut_scan_squeeze hnext rest
        rw [hstep rest rfl, hstep _ (lead_squeeze rest)]
        by_cases hrole : role = .terminator
        · rw [cut, cut, if_pos hrole, if_pos hrole, ih]
          rfl
        · obtain ⟨piece, pieces, hcut⟩ := exists_cut (scan next rest)
          rw [hcut, List.map_cons] at ih
          rw [cut_cons hrole hcut, cut_cons hrole ih, List.map_cons, squeeze_of_not_blank hc']
      · have ih := cut_scan_squeeze hnext behind
        obtain ⟨piece, pieces, hcut⟩ := exists_cut (scan next behind)
        rw [hcut, List.map_cons] at ih
        rw [squeeze_of_not_blank hd, hstep, hstep, cut_cons hrole (cut_cons hrole' hcut),
          cut_cons hrole (cut_cons hrole' ih), List.map_cons, squeeze_of_not_blank hc',
          squeeze_of_not_blank hd]
termination_by cs.length

end Stretches

/-- The statements of a squeezed script are those of the script, each with its lines trimmed. -/
theorem statementChars_squeeze (cs : List Char) :
    statementChars (squeeze cs) = (statementChars cs).map tidyChars := by
  have hcode : Mode.code.Proper := trivial
  rw [statementChars, cut_scan_squeeze hcode, statementChars]
  induction cut (scan .code cs) with
  | nil => rfl
  | cons piece pieces ih =>
    rw [List.map_cons, List.map_cons, List.map_cons]
    by_cases hnil : trimChars piece = []
    · have hsqueezed : trimChars (squeeze piece) = [] := tidyChars_eq_nil.2 hnil
      rw [List.filter_cons_of_neg (by simp [hsqueezed]), List.filter_cons_of_neg (by simp [hnil])]
      exact ih
    · have hsqueezed : trimChars (squeeze piece) ≠ [] := fun h => hnil (tidyChars_eq_nil.1 h)
      rw [List.filter_cons_of_pos (by simpa using hsqueezed),
        List.filter_cons_of_pos (by simpa using hnil), List.map_cons, ih, tidyChars_trimChars]
      rfl

/-- White space at the front of a script is part of no statement. -/
theorem statementChars_trimLeft (cs : List Char) :
    statementChars (trimLeft cs) = statementChars cs := by
  obtain ⟨piece, pieces, hcut⟩ := exists_cut (scan .code cs)
  have hcode : Mode.code.Proper := trivial
  have htrim : trimChars (trimLeft piece) = trimChars piece := by
    rw [trimChars, trimChars]
    exact congrArg trimRight (List.dropWhile_idempotent isBlank piece)
  rw [statementChars, cut_scan_trimLeft hcode Mode.noConfusion hcut, statementChars, hcut,
    List.map_cons, List.map_cons, htrim]

/-- Some lines as a text, each ended by a newline. -/
def ended (lines : List (List Char)) : List Char := lines.flatMap (· ++ ['\n'])

/-- The lines of a text, trimmed and without the empty ones. -/
def trimmedLines (lines : List (List Char)) : List (List Char) :=
  (lines.map trimChars).filter fun line => !line.isEmpty

theorem squeeze_inner {core : List Char} (hcore : '\n' ∉ core)
    (hlast : ∀ c ∈ core.getLast?, isBlank c = false) (behind : List Char) :
    squeeze (core ++ behind) = core ++ squeeze behind := by
  induction core with
  | nil => rfl
  | cons c rest ih =>
    obtain ⟨hline, hrest⟩ := List.ne_and_not_mem_of_not_mem_cons hcore
    cases rest with
    | nil =>
      have hc : isBlank c = false := hlast c rfl
      exact squeeze_of_not_blank hc
    | cons d front =>
      have hbehind := ih hrest hlast
      have hnext : (squeeze (d :: front ++ behind)).head? ≠ some '\n' := by
        rw [hbehind]
        intro hhead
        cases hhead
        exact hrest List.mem_cons_self
      rw [List.cons_append, squeeze_kept (Ne.symm hline) hnext, hbehind]
      rfl

/-- White space at the end of a line is dropped. -/
theorem squeeze_line_end {blanks : List Char} (hblanks : ∀ c ∈ blanks, isBlank c = true)
    (hline : '\n' ∉ blanks) (behind : List Char) :
    squeeze (blanks ++ '\n' :: behind) = '\n' :: trimLeft (squeeze behind) := by
  induction blanks with
  | nil => exact squeeze_newline behind
  | cons c rest ih =>
    obtain ⟨hc, hrest⟩ := List.forall_mem_cons.1 hblanks
    obtain ⟨hne, hrestline⟩ := List.ne_and_not_mem_of_not_mem_cons hline
    have hbehind := ih hrest hrestline
    rw [List.cons_append, squeeze_dropped hc (Ne.symm hne) (by rw [hbehind]; rfl), hbehind]

/-- A line comes down to what is left of it when it is trimmed, and to nothing if it is empty. -/
theorem squeeze_line {line : List Char} (hline : '\n' ∉ line) (behind : List Char) :
    squeeze (trimLeft (line ++ '\n' :: behind)) =
      if trimChars line = [] then squeeze (trimLeft behind)
      else trimChars line ++ '\n' :: squeeze (trimLeft behind) := by
  obtain ⟨blanks, hblanks, hsplit⟩ := Text.trimRight_decompose (trimLeft line)
  have hkept : trimRight (trimLeft line) = trimChars line := rfl
  rw [hkept] at hsplit
  by_cases hnil : trimChars line = []
  · have htwice : trimLeft (trimLeft line) = trimLeft line :=
      List.dropWhile_idempotent isBlank line
    have hempty : trimLeft line = [] := by
      rw [hnil, List.nil_append] at hsplit
      rw [← htwice, hsplit]
      exact List.dropWhile_eq_nil_iff.2 hblanks
    rw [trimLeft_append, if_pos hempty, if_pos hnil, trimLeft_of_isBlank (by decide)]
  · have hsome : trimLeft line ≠ [] := by
      intro hempty
      rw [hempty] at hsplit
      exact hnil (List.append_eq_nil_iff.1 hsplit.symm).1
    have hleft : '\n' ∉ trimLeft line := fun hmem =>
      hline ((List.dropWhile_suffix isBlank).subset hmem)
    rw [hsplit, List.mem_append, not_or] at hleft
    rw [trimLeft_append, if_neg hsome, if_neg hnil, hsplit, List.append_assoc,
      squeeze_inner hleft.1 (Text.ends_trimChars line).2, squeeze_line_end hblanks hleft.2,
      trimLeft_squeeze]

theorem ended_cons (line : List Char) (rest : List (List Char)) :
    ended (line :: rest) = line ++ '\n' :: ended rest := by
  rw [ended, List.flatMap_cons, List.append_assoc]
  rfl

theorem trimmedLines_cons (line : List Char) (rest : List (List Char)) :
    trimmedLines (line :: rest) =
      if trimChars line = [] then trimmedLines rest else trimChars line :: trimmedLines rest := by
  rw [trimmedLines, List.map_cons, List.filter_cons]
  cases trimChars line <;> rfl

/-- A text of lines comes down to its lines, trimmed and without the empty ones. -/
theorem squeeze_ended {lines : List (List Char)} (h : ∀ line ∈ lines, '\n' ∉ line) :
    squeeze (trimLeft (ended lines)) = ended (trimmedLines lines) := by
  induction lines with
  | nil => rfl
  | cons line rest ih =>
    obtain ⟨hline, hrest⟩ := List.forall_mem_cons.1 h
    rw [ended_cons, squeeze_line hline, ih hrest, trimmedLines_cons]
    split
    · rfl
    · rw [ended_cons]

/-- The lines of a script, trimmed and without the empty ones, are the statements of the script,
each with its lines trimmed. -/
theorem statementChars_trimmedLines {lines : List (List Char)} (h : ∀ line ∈ lines, '\n' ∉ line) :
    statementChars (ended (trimmedLines lines)) = (statementChars (ended lines)).map tidyChars := by
  rw [← squeeze_ended h, statementChars_squeeze, statementChars_trimLeft]

/-- A trimmed line leaves the pass in the mode that the line leaves it in. -/
theorem modeAfter_trimChars {mode : Mode} (hmode : mode.Proper) (hcode : mode ≠ .lineComment)
    {line : List Char} (hline : '\n' ∉ line) :
    modeAfter mode (trimChars line) = modeAfter mode line := by
  obtain ⟨before, hbefore, hleft⟩ := Text.trimLeft_decompose line
  obtain ⟨behind, hbehind, hright⟩ := Text.trimRight_decompose (trimLeft line)
  have hkept : trimRight (trimLeft line) = trimChars line := rfl
  have hend : '\n' ∉ behind := by
    intro hmem
    rw [hleft, hright] at hline
    exact hline (List.mem_append_right _ (List.mem_append_right _ hmem))
  have hafter : modeAfter mode (trimChars line ++ behind) = modeAfter mode (trimChars line) := by
    cases behind with
    | nil => rw [List.append_nil]
    | cons d rest =>
      have hapart : Apart d := apart_of_isBlank (hbehind d List.mem_cons_self)
      have hblanks := modeAfter_blanks (proper_modeAfter hmode (trimChars line)) hbehind
        (.inr hend) []
      rw [List.append_nil] at hblanks
      rw [(scan_append hapart hmode (trimChars line) rest).2, hblanks]
      rfl
  rw [hkept] at hright
  conv_rhs => rw [hleft, hright]
  rw [modeAfter_blanks hmode hbefore (.inl hcode), hafter]

/-- What stands at the end without ending a statement is part of the last stretch. -/
theorem cut_concat {role : Role} (hrole : role ≠ .terminator) (d : Char)
    (marked : List (Char × Role)) :
    ∃ front last, cut marked = front ++ [last] ∧
      cut (marked ++ [(d, role)]) = front ++ [last ++ [d]] := by
  induction marked with
  | nil => exact ⟨[], [], rfl, cut_cons hrole rfl⟩
  | cons p rest ih =>
    obtain ⟨front, last, hcut, hcut'⟩ := ih
    by_cases hp : p.2 = .terminator
    · refine ⟨[] :: front, last, ?_, ?_⟩
      · rw [cut, if_pos hp, hcut]
        rfl
      · rw [List.cons_append, cut, if_pos hp, hcut']
        rfl
    · cases front with
      | nil => exact ⟨[], p.1 :: last, cut_cons hp hcut, cut_cons hp hcut'⟩
      | cons first others =>
        exact ⟨(p.1 :: first) :: others, last, cut_cons hp hcut, cut_cons hp hcut'⟩

/-- White space at the end of a script is part of no statement. -/
theorem statementChars_concat (hd : isBlank d = true) (cs : List Char) :
    statementChars (cs ++ [d]) = statementChars cs := by
  have hcode : Mode.code.Proper := trivial
  have htrim : ∀ last, trimChars (last ++ [d]) = trimChars last := by
    intro last
    have hcut : trimRight (last ++ [d]) = trimRight last := List.rdropWhile_concat_pos _ _ _ hd
    rw [trimChars, ← trimLeft_trimRight, hcut, trimLeft_trimRight]
    rfl
  obtain ⟨role, hrole, hscan⟩ := scan_blank (proper_modeAfter hcode cs) hd
  have hend : scan .code (cs ++ [d]) = scan .code cs ++ [(d, role)] := by
    rw [(scan_append (apart_of_isBlank hd) hcode cs []).1, (hscan []).1, scan_nil]
  obtain ⟨front, last, hcut, hcut'⟩ := cut_concat hrole d (scan .code cs)
  rw [statementChars, statementChars, hend, hcut, hcut', List.map_append, List.map_append,
    List.map_singleton, List.map_singleton, htrim]

theorem ended_concat (lines : List (List Char)) (line : List Char) :
    ended (lines ++ [line]) = ended lines ++ line ++ ['\n'] := by
  rw [ended, List.flatMap_append, List.flatMap_singleton, List.append_assoc]
  rfl

theorem ended_append (lines further : List (List Char)) :
    ended (lines ++ further) = ended lines ++ ended further := List.flatMap_append

theorem ended_eq_intercalate {lines : List (List Char)} (h : lines ≠ []) :
    ended lines = ['\n'].intercalate lines ++ ['\n'] := by
  induction lines with
  | nil => exact absurd rfl h
  | cons line rest ih =>
    cases rest with
    | nil => simp [ended]
    | cons next others =>
      have hne : next :: others ≠ [] := List.cons_ne_nil _ _
      rw [ended_cons, ih hne, List.intercalate_cons_of_ne_nil hne]
      simp

/-- Lines joined by newlines have the same statements as lines that are each ended by one. -/
theorem statementChars_intercalate (lines : List (List Char)) :
    statementChars (['\n'].intercalate lines) = statementChars (ended lines) := by
  cases lines with
  | nil => rfl
  | cons line rest =>
    rw [ended_eq_intercalate (List.cons_ne_nil line rest), statementChars_concat (by decide)]

/-- The last line that is not empty ends as the text ends, white space apart. -/
theorem getLast?_trimmedLines (lines : List (List Char)) :
    (trimmedLines lines).getLast?.bind (·.getLast?) = (trimRight (ended lines)).getLast? := by
  induction lines using List.reverseRecOn with
  | nil => rfl
  | append_singleton front last ih =>
    have hline : trimRight (last ++ ['\n']) = trimRight last :=
      List.rdropWhile_concat_pos _ _ _ (by decide)
    have htrim : trimLeft (trimRight last) = trimChars last := trimLeft_trimRight last
    rw [ended_concat, List.append_assoc, trimRight_append, hline, trimmedLines, List.map_append,
      List.filter_append]
    by_cases hnil : trimRight last = []
    · have hempty : trimChars last = [] := by rw [← htrim, hnil]; rfl
      rw [if_pos hnil, ← ih]
      simp [hempty, trimmedLines]
    · have hsome : trimChars last ≠ [] := by
        rw [← htrim]
        exact trimLeft_trimRight_ne_nil hnil
      obtain ⟨blanks, -, hsplit⟩ := Text.trimLeft_decompose (trimRight last)
      rw [htrim] at hsplit
      rw [if_neg hnil, hsplit]
      simp [hsome, List.getLast?_append, List.getLast?_eq_some_getLast hsome]

/-- Behind some lines the pass goes on from the mode that they leave it in, and that is no line
comment. -/
theorem modeAfter_ended (lines : List (List Char)) :
    modeAfter .code (ended lines) ≠ .lineComment ∧
      ∀ cs, modeAfter .code (ended lines ++ cs) = modeAfter (modeAfter .code (ended lines)) cs := by
  induction lines using List.reverseRecOn with
  | nil => exact ⟨Mode.noConfusion, fun _ => rfl⟩
  | append_singleton front last _ =>
    have hcode : Mode.code.Proper := trivial
    rw [ended_concat]
    constructor
    · rw [modeAfter_newline hcode]
      exact afterBlank_newline _
    · intro cs
      rw [List.append_assoc, modeAfter_newline hcode, List.singleton_append,
        modeAfter_newline hcode]
      rfl

/-- Where a line ends a statement with its semicolon, the statements behind it are those of the
text behind it. -/
theorem statementChars_behind_semicolon {front : List Char}
    (h : modeAfter .code (front ++ [';']) = .code) (rest : List Char) :
    statementChars (front ++ ';' :: '\n' :: rest) =
      statementChars (front ++ [';', '\n']) ++ statementChars rest := by
  have hcode : Mode.code.Proper := trivial
  have hblank : ∀ cs, statementChars ('\n' :: cs) = statementChars cs := by
    intro cs
    rw [← statementChars_trimLeft, trimLeft_of_isBlank (by decide), statementChars_trimLeft]
  rw [modeAfter_semicolon hcode] at h
  rw [statementChars_append h, statementChars_append h, hblank, hblank, List.append_assoc]
  rfl

end SqlEngine.Script
