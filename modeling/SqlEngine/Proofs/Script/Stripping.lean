import SqlEngine.Proofs.Script.Clean
import SqlEngine.Proofs.Text.Blank

/-!
# Stripping a stripped text

White space at the two ends of a text has no say in what its other characters are. So a text that is
stripped of its comments is still free of comments when it is trimmed, and stripping it again
changes nothing.
-/
namespace SqlEngine.Script

theorem scan_quoted_head (quote c : Char) (rest : List Char) :
    [(c, Role.quoted)] <+: scan (.quoted quote) (c :: rest) := by
  by_cases hc : c = '\\'
  · subst hc
    cases rest with
    | nil =>
      rw [scan_quoted (.inr rfl)]
      exact List.prefix_append _ _
    | cons d r => exact List.prefix_append _ _
  · rw [scan_quoted (.inl hc)]
    exact List.prefix_append _ _

section Blanks

variable {blanks : List Char} (hblanks : ∀ c ∈ blanks, Text.isBlank c = true)
include hblanks

theorem head?_append_blanks_ne {rest : List Char} {d : Char} (hd : Text.isBlank d = false)
    (h : rest.head? ≠ some d) : (rest ++ blanks).head? ≠ some d := by
  cases rest with
  | nil =>
    intro hhead
    rw [hblanks d (List.mem_of_head? hhead)] at hd
    cases hd
  | cons e r => exact h

theorem not_opensComment_append {c : Char} {rest : List Char} (h : ¬ OpensComment c rest) :
    ¬ OpensComment c (rest ++ blanks) := by
  rintro (⟨rfl, hhead⟩ | ⟨rfl, hhead⟩)
  · exact head?_append_blanks_ne hblanks (by decide) (fun hrest => h (.inl ⟨rfl, hrest⟩)) hhead
  · exact head?_append_blanks_ne hblanks (by decide) (fun hrest => h (.inr ⟨rfl, hrest⟩)) hhead

theorem not_closesComment_append {c : Char} {rest : List Char} (h : ¬ ClosesComment c rest) :
    ¬ ClosesComment c (rest ++ blanks) := by
  rintro ⟨hc, hhead⟩
  exact head?_append_blanks_ne hblanks (by decide) (fun hrest => h ⟨hc, hrest⟩) hhead

/-- White space behind a text does not change what the characters of the text are. -/
theorem scan_before_blanks (mode : Mode) (cs : List Char) :
    scan mode cs <+: scan mode (cs ++ blanks) := by
  fun_induction scan mode cs with
  | case1 mode => exact List.nil_prefix
  | case2 rest ih | case3 rest ih | case5 quote c rest ih | case9 rest ih =>
    exact (List.prefix_cons_inj _).2 ((List.prefix_cons_inj _).2 ih)
  | case4 c rest line block ih =>
    rw [List.cons_append, scan_code (not_opensComment_append hblanks (not_opensComment line block))]
    exact (List.prefix_cons_inj _).2 ih
  | case6 quote c rest pair ih =>
    cases rest with
    | nil =>
      rw [scan_nil]
      exact scan_quoted_head quote c blanks
    | cons d r =>
      rw [List.cons_append, scan_quoted (.inl fun hc => pair d r hc rfl)]
      exact (List.prefix_cons_inj _).2 ih
  | case7 rest ih =>
    rw [List.cons_append, scan, if_pos rfl]
    exact (List.prefix_cons_inj _).2 ih
  | case8 c rest hc ih =>
    rw [List.cons_append, scan, if_neg hc]
    exact (List.prefix_cons_inj _).2 ih
  | case10 c rest hend ih =>
    have hopen := not_closesComment_append hblanks (not_closesComment hend)
    rw [List.cons_append, scan_blockComment hopen]
    exact (List.prefix_cons_inj _).2 ih

end Blanks

theorem scan_trimLeft_suffix (cs : List Char) :
    scan .code (Text.trimLeft cs) <:+ scan .code cs := by
  induction cs with
  | nil => exact List.suffix_rfl
  | cons c rest ih =>
    rw [Text.trimLeft, List.dropWhile_cons]
    split
    · next hblank =>
      rw [scan_code (not_opensComment_of_isBlank hblank), afterCode_of_isBlank hblank]
      exact ih.trans (List.suffix_cons _ _)
    · exact List.suffix_rfl

/-- Trimming a text changes the role of no character that it leaves. -/
theorem scan_trimChars_subset (cs : List Char) :
    scan .code (Text.trimChars cs) ⊆ scan .code cs := by
  obtain ⟨blanks, hblanks, hsplit⟩ := Text.trimRight_decompose (Text.trimLeft cs)
  have hright : scan .code (Text.trimChars cs) <+: scan .code (Text.trimLeft cs) := by
    have hbefore := scan_before_blanks hblanks .code (Text.trimRight (Text.trimLeft cs))
    rwa [← hsplit] at hbefore
  exact List.Subset.trans hright.subset (scan_trimLeft_suffix cs).subset

theorem commentFree_trimChars {cs : List Char} (h : CommentFree .code cs) :
    CommentFree .code (Text.trimChars cs) :=
  fun p hp => h p (scan_trimChars_subset cs hp)

/-- Stripping a text that is stripped of its comments changes nothing. -/
theorem stripChars_stripChars (cs : List Char) : stripChars (stripChars cs) = stripChars cs := by
  have hfree : CommentFree .code (stripChars cs) :=
    commentFree_trimChars (commentFree_clean .code cs)
  calc stripChars (stripChars cs)
    _ = Text.trimChars (clean .code (stripChars cs)) := rfl
    _ = Text.trimChars (stripChars cs) := by rw [clean_of_commentFree hfree]
    _ = stripChars cs := Text.trimChars_trimChars _

end SqlEngine.Script
