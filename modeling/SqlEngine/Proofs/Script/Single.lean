import SqlEngine.Proofs.Script.Passage
import SqlEngine.Proofs.Script.Stripping

/-!
# Scripts of one statement

A script in which nothing ends a statement is one statement; if nothing in it is a comment either,
that statement is run as it stands. Any script is such a stretch, or one that ends in code with a
semicolon and a further script behind it, which gives an induction over scripts. Every statement
that a script is cut into is a script of one statement: what its characters are does not change
when it stands alone.
-/
namespace SqlEngine.Script

theorem allowed_of_passes {allowed : Role → Prop} {mode : Mode} {cs : List Char}
    (h : Passes allowed mode cs []) : ∀ p ∈ scan mode cs, allowed p.2 := by
  obtain ⟨marked, hscan, hallowed⟩ := h
  rw [hscan, scan_nil, List.append_nil]
  exact hallowed

theorem cut_of_within {marked : List (Char × Role)} (h : ∀ p ∈ marked, Within p.2) :
    cut marked = [marked.map Prod.fst] := by
  induction marked with
  | nil => rfl
  | cons p rest ih =>
    obtain ⟨hrole, hrest⟩ := List.forall_mem_cons.1 h
    rw [cut, if_neg hrole, ih hrest]
    rfl

/-- A script without terminators and without white space at its ends is one statement. -/
theorem statements_of_within {script : String} (h : ∀ p ∈ scan .code script.toList, Within p.2)
    (htrim : Text.trimChars script.toList = script.toList) (hne : script.toList ≠ []) :
    statements script = [script] := by
  have hcut : cut (scan .code script.toList) = [script.toList] := by
    rw [cut_of_within h, map_fst_scan]
  simp [statements, statementChars, hcut, htrim, hne]

theorem Quiet.ne_comment {role : Role} (h : Quiet role) : role ≠ .comment ∧ role ≠ .commentEnd := by
  rcases h with rfl | rfl
  · decide
  · decide

/-- A quiet script without white space at its ends is one statement without comments. -/
theorem statements_of_quiet {script : String} (hquiet : Passes Quiet .code script.toList [])
    (htrim : Text.trimChars script.toList = script.toList) (hne : script.toList ≠ []) :
    statements script = [script] ∧ stripComments script = script := by
  have hall := allowed_of_passes hquiet
  have hclean : clean .code script.toList = script.toList :=
    clean_of_commentFree fun p hp => (hall p hp).ne_comment
  refine ⟨statements_of_within (fun p hp => (hall p hp).within) htrim hne, ?_⟩
  rw [stripComments, stripChars]
  change String.ofList (Text.trimChars (clean .code script.toList)) = script
  rw [hclean, htrim, String.ofList_toList]

/-- The pass marks the characters in front of the first terminator as it marks them when nothing
follows, and behind the terminator it begins again in code. -/
def Stretched (mode : Mode) (cs : List Char) : Prop :=
  ∃ marked, (∀ p ∈ marked, Within p.2) ∧ scan mode (marked.map Prod.fst) = marked ∧
    (scan mode cs = marked ∨
      ∃ rest, scan mode cs = marked ++ (';', .terminator) :: scan .code rest)

section Stretches

variable {mode next : Mode} {c d : Char} {rest : List Char} {role role' : Role}

theorem prefix_of_scan {marked behind : List (Char × Role)} {cs : List Char}
    (h : scan mode cs = marked ++ behind) : marked.map Prod.fst <+: cs := by
  have hchars := map_fst_scan mode cs
  rw [h, List.map_append] at hchars
  exact ⟨_, hchars⟩

theorem Stretched.cons
    (hscan : ∀ front, front <+: rest → scan mode (c :: front) = (c, role) :: scan next front)
    (hrole : Within role) (h : Stretched next rest) : Stretched mode (c :: rest) := by
  obtain ⟨marked, hwithin, halone, hfull⟩ := h
  have hfront : marked.map Prod.fst <+: rest := by
    rcases hfull with hfull | ⟨behind, hfull⟩
    · exact prefix_of_scan (hfull.trans (List.append_nil marked).symm)
    · exact prefix_of_scan hfull
  refine ⟨(c, role) :: marked, List.forall_mem_cons.2 ⟨hrole, hwithin⟩, ?_, ?_⟩
  · rw [List.map_cons, hscan _ hfront, halone]
  · rw [hscan rest List.prefix_rfl]
    rcases hfull with hfull | ⟨behind, hfull⟩
    · exact .inl (congrArg _ hfull)
    · exact .inr ⟨behind, congrArg _ hfull⟩

theorem Stretched.cons_cons
    (hscan : ∀ front, scan mode (c :: d :: front) = (c, role) :: (d, role') :: scan next front)
    (hrole : Within role) (hrole' : Within role') (h : Stretched next rest) :
    Stretched mode (c :: d :: rest) := by
  obtain ⟨marked, hwithin, halone, hfull⟩ := h
  refine ⟨(c, role) :: (d, role') :: marked, ?_, ?_, ?_⟩
  · exact List.forall_mem_cons.2 ⟨hrole, List.forall_mem_cons.2 ⟨hrole', hwithin⟩⟩
  · rw [List.map_cons, List.map_cons, hscan, halone]
  · rw [hscan]
    rcases hfull with hfull | ⟨behind, hfull⟩
    · exact .inl (congrArg (fun marked => (c, role) :: (d, role') :: marked) hfull)
    · exact .inr ⟨behind, congrArg (fun marked => (c, role) :: (d, role') :: marked) hfull⟩

theorem head?_ne_of_front {cs front : List Char} (hfront : front <+: cs)
    (h : cs.head? ≠ some d) : front.head? ≠ some d := by
  intro hhead
  obtain ⟨rest, rfl⟩ := List.head?_eq_some_iff.1 hhead
  obtain ⟨behind, rfl⟩ := hfront
  exact h rfl

theorem not_opensComment_of_front {front : List Char} (hfront : front <+: rest)
    (h : ¬ OpensComment c rest) : ¬ OpensComment c front := by
  rintro (⟨hc, hhead⟩ | ⟨hc, hhead⟩)
  · exact head?_ne_of_front hfront (fun hrest => h (.inl ⟨hc, hrest⟩)) hhead
  · exact head?_ne_of_front hfront (fun hrest => h (.inr ⟨hc, hrest⟩)) hhead

end Stretches

theorem stretched (mode : Mode) (cs : List Char) : Stretched mode cs := by
  fun_induction scan mode cs with
  | case1 mode => exact ⟨[], by simp, scan_nil mode, .inl (scan_nil mode)⟩
  | case2 rest ih | case3 rest ih | case5 quote c rest ih | case9 rest ih =>
    exact .cons_cons (fun _ => rfl) (by decide) (by decide) ih
  | case4 c rest line block ih =>
    have hopens := not_opensComment line block
    by_cases hc : c = ';'
    · subst hc
      exact ⟨[], by simp, scan_nil _, .inr ⟨rest, scan_code hopens⟩⟩
    · have hrole : Within (.ofCode c) := by
        rw [Role.ofCode, if_neg hc]
        split <;> decide
      exact .cons (fun _ h => scan_code (not_opensComment_of_front h hopens)) hrole ih
  | case6 quote c rest pair ih =>
    refine .cons (fun front hfront => scan_quoted ?_) (by decide) ih
    cases rest with
    | nil => exact .inr (List.prefix_nil.1 hfront)
    | cons d r => exact .inl fun hc => pair d r hc rfl
  | case7 rest ih =>
    have hscan : ∀ front, scan .lineComment ('\n' :: front) = ('\n', .code) :: scan .code front :=
      fun _ => by rw [scan, if_pos rfl]
    exact .cons (fun front _ => hscan front) (by decide) ih
  | case8 c rest hc ih =>
    have hscan : ∀ front,
        scan .lineComment (c :: front) = (c, .comment) :: scan .lineComment front :=
      fun _ => by rw [scan, if_neg hc]
    exact .cons (fun front _ => hscan front) (by decide) ih
  | case10 c rest hend ih =>
    have hopen := not_closesComment hend
    refine .cons (fun _ h => scan_blockComment ?_) (by decide) ih
    rintro ⟨hc, hhead⟩
    exact head?_ne_of_front h (fun hrest => hopen ⟨hc, hrest⟩) hhead

/-- Behind a semicolon of code the pass begins again. -/
theorem scan_append_terminator {front : List Char} (h : modeAfter .code front = .code)
    (rest : List Char) :
    scan .code (front ++ ';' :: rest) =
      scan .code front ++ (';', .terminator) :: scan .code rest := by
  have hcode : Mode.code.Proper := trivial
  have hopens : ¬ OpensComment ';' rest := not_opensComment_of_ne (by decide) (by decide)
  rw [(scan_append (by decide) hcode front rest).1, h, scan_code hopens]
  rfl

theorem cut_ne_nil (marked : List (Char × Role)) : cut marked ≠ [] := by
  fun_cases cut marked <;> simp_all

theorem cut_append_terminator (marked behind : List (Char × Role)) (c : Char) :
    cut (marked ++ (c, .terminator) :: behind) = cut marked ++ cut behind := by
  induction marked with
  | nil => rfl
  | cons p rest ih =>
    rw [List.cons_append, cut, cut]
    split
    · rw [ih]
      rfl
    · obtain ⟨piece, pieces, hcut⟩ := List.exists_cons_of_ne_nil (cut_ne_nil rest)
      rw [ih, hcut]
      rfl

/-- A semicolon ends a statement only where the pass is in code. -/
theorem code_of_terminator {mode : Mode} (hmode : mode.Proper) {rest : List Char}
    {marked : List (Char × Role)}
    (h : scan mode (';' :: rest) = (';', .terminator) :: marked) : mode = .code := by
  cases mode with
  | code => rfl
  | quoted quote =>
    have hapart : Apart ';' := by decide
    rw [(hapart.quoted hmode rest).1] at h
    cases h
  | lineComment =>
    rw [scan, if_neg (by decide)] at h
    cases h
  | blockComment =>
    have hcloses : ¬ ClosesComment ';' rest := fun hcloses => absurd hcloses.1 (by decide)
    rw [scan_blockComment hcloses] at h
    cases h

/-- A script is one stretch, or its first stretch ends in code and a semicolon stands behind it. -/
theorem exists_terminator (cs : List Char) :
    (∀ p ∈ scan .code cs, Within p.2) ∨
      ∃ front rest, cs = front ++ ';' :: rest ∧ (∀ p ∈ scan .code front, Within p.2) ∧
        modeAfter .code front = .code := by
  have hcode : Mode.code.Proper := trivial
  obtain ⟨marked, hwithin, halone, hfull | ⟨rest, hfull⟩⟩ := stretched .code cs
  · exact .inl (hfull ▸ hwithin)
  · have hchars : marked.map Prod.fst ++ ';' :: rest = cs := by
      rw [← map_fst_scan .code cs, hfull, List.map_append, List.map_cons, map_fst_scan]
    have hapart : Apart ';' := by decide
    have hgoesOn := (scan_append hapart hcode (marked.map Prod.fst) rest).1
    rw [hchars, hfull, halone] at hgoesOn
    have hterminator := (List.append_cancel_left hgoesOn).symm
    refine .inr ⟨marked.map Prod.fst, rest, hchars.symm, ?_, ?_⟩
    · rwa [halone]
    · exact code_of_terminator (proper_modeAfter hcode _) hterminator

/-- What holds of one stretch, and of a script when it holds behind its first terminator, holds of
every script. -/
@[elab_as_elim]
theorem terminator_induction {P : List Char → Prop}
    (alone : ∀ cs, (∀ p ∈ scan .code cs, Within p.2) → P cs)
    (followed : ∀ front rest, (∀ p ∈ scan .code front, Within p.2) →
      modeAfter .code front = .code → P rest → P (front ++ ';' :: rest))
    (cs : List Char) : P cs := by
  rcases exists_terminator cs with hwithin | ⟨front, rest, rfl, hwithin, hcode⟩
  · exact alone cs hwithin
  · exact followed front rest hwithin hcode (terminator_induction alone followed rest)
termination_by cs.length
decreasing_by
  subst cs
  rw [List.length_append, List.length_cons]
  omega

/-- No stretch of a script has a terminator in it, when the pass goes over it alone. -/
theorem within_of_mem_cut {cs piece : List Char} (h : piece ∈ cut (scan .code cs)) :
    ∀ p ∈ scan .code piece, Within p.2 := by
  induction cs using terminator_induction with
  | alone cs hwithin =>
    rw [cut_of_within hwithin, map_fst_scan, List.mem_singleton] at h
    rwa [h]
  | followed front rest hwithin hcode ih =>
    rw [scan_append_terminator hcode, cut_append_terminator, cut_of_within hwithin, map_fst_scan,
      List.singleton_append] at h
    rcases List.mem_cons.1 h with rfl | hbehind
    · exact hwithin
    · exact ih hbehind

/-- A statement of a script is, as a script of its own, that one statement. -/
theorem statements_of_mem {script statement : String} (h : statement ∈ statements script) :
    statements statement = [statement] := by
  obtain ⟨cs, hcs, rfl⟩ := List.mem_map.1 h
  obtain ⟨hpieces, hne⟩ := List.mem_filter.1 hcs
  obtain ⟨piece, hpiece, rfl⟩ := List.mem_map.1 hpieces
  apply statements_of_within
  · intro p hp
    rw [String.toList_ofList] at hp
    exact within_of_mem_cut hpiece p (scan_trimChars_subset piece hp)
  · rw [String.toList_ofList]
    exact Text.trimChars_trimChars piece
  · rw [String.toList_ofList]
    simpa using hne

end SqlEngine.Script
