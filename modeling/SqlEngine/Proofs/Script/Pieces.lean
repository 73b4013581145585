import SqlEngine.Proofs.Script.Lines

/-!
# Scripts put together

The statements of two scripts with a semicolon between them are those of the one and then those of
the other, when the semicolon is in code, and cutting a script loses nothing but white space and
terminators. Statements can be put together again, but not with semicolons alone: one may end in a
line comment whose newline was trimmed away, so a newline stands in front of each semicolon.
-/
namespace SqlEngine.Script

open Text (isBlank trimLeft trimRight trimChars)

/-- The pieces stand among the marked characters, in order and without a terminator in any of them,
and around them are only white space and terminators. -/
inductive Laid : List (Char × Role) → List (List Char) → Prop
  | nil : Laid [] []
  | blank {c : Char} {role : Role} {marked : List (Char × Role)} {pieces : List (List Char)}
      (hc : isBlank c = true) (h : Laid marked pieces) : Laid ((c, role) :: marked) pieces
  | terminator {marked : List (Char × Role)} {pieces : List (List Char)} (h : Laid marked pieces) :
      Laid ((';', .terminator) :: marked) pieces
  | piece {front marked : List (Char × Role)} {pieces : List (List Char)}
      (hfront : ∀ p ∈ front, Within p.2) (h : Laid marked pieces) :
      Laid (front ++ marked) (front.map Prod.fst :: pieces)

section Layout

variable {marked marked' : List (Char × Role)} {pieces pieces' : List (List Char)}

theorem Laid.append (h : Laid marked pieces) (h' : Laid marked' pieces') :
    Laid (marked ++ marked') (pieces ++ pieces') := by
  induction h with
  | nil => exact h'
  | blank hc _ ih => exact .blank hc ih
  | terminator _ ih => exact .terminator ih
  | piece hfront _ ih =>
    rw [List.append_assoc]
    exact .piece hfront ih

theorem laid_of_blanks (h : ∀ c ∈ marked.map Prod.fst, isBlank c = true) : Laid marked [] := by
  induction marked with
  | nil => exact .nil
  | cons p rest ih =>
    obtain ⟨hc, hrest⟩ := List.forall_mem_cons.1 h
    exact .blank hc (ih hrest)

/-- A stretch without a terminator is its trimmed part, if any, and white space around it. -/
theorem laid_of_within (h : ∀ p ∈ marked, Within p.2) :
    Laid marked ([trimChars (marked.map Prod.fst)].filter (!·.isEmpty)) := by
  obtain ⟨before, hbefore, hleft⟩ := Text.trimLeft_decompose (marked.map Prod.fst)
  obtain ⟨after, hafter, hright⟩ := Text.trimRight_decompose (trimLeft (marked.map Prod.fst))
  rw [hright] at hleft
  obtain ⟨front, rest, rfl, hfront, hrest⟩ := List.map_eq_append_iff.1 hleft
  obtain ⟨middle, behind, rfl, hmiddle, hbehind⟩ := List.map_eq_append_iff.1 hrest
  have hkept : trimChars ((front ++ (middle ++ behind)).map Prod.fst) = middle.map Prod.fst :=
    hmiddle.symm
  have hfront : Laid front [] := laid_of_blanks (hfront ▸ hbefore)
  have hbehind : Laid behind [] := laid_of_blanks (hbehind ▸ hafter)
  have hwithin : ∀ p ∈ middle, Within p.2 := fun p hp => h p (by simp [hp])
  rw [hkept]
  refine hfront.append ?_
  cases middle with
  | nil => exact hbehind
  | cons p inner => exact .piece hwithin hbehind

end Layout

variable {cs front rest : List Char}

theorem statementChars_of_within (h : ∀ p ∈ scan .code cs, Within p.2) :
    statementChars cs = [trimChars cs].filter (!·.isEmpty) := by
  rw [statementChars, cut_of_within h, map_fst_scan]
  rfl

theorem laid_statementChars (cs : List Char) : Laid (scan .code cs) (statementChars cs) := by
  induction cs using terminator_induction with
  | alone cs hwithin =>
    have hlaid := laid_of_within hwithin
    rwa [map_fst_scan, ← statementChars_of_within hwithin] at hlaid
  | followed front rest hwithin hcode ih =>
    have hlaid := laid_of_within hwithin
    rw [map_fst_scan, ← statementChars_of_within hwithin] at hlaid
    rw [scan_append_terminator hcode, statementChars_append hcode]
    exact hlaid.append (.terminator ih)

/-- Where a stretch ends in code, so does its trimmed part with a newline behind it. -/
theorem modeAfter_trimmed (h : modeAfter .code cs = .code) :
    modeAfter .code (trimChars cs ++ ['\n']) = .code := by
  have hcode : Mode.code.Proper := trivial
  obtain ⟨before, hbefore, hleft⟩ := Text.trimLeft_decompose cs
  obtain ⟨after, hafter, hright⟩ := Text.trimRight_decompose (trimLeft cs)
  rw [hleft, modeAfter_blanks hcode hbefore (.inl Mode.noConfusion), hright] at h
  -- the white space that was trimmed off ends a line comment and nothing else
  have hends : modeAfter .code (trimChars cs) = .code ∨
      modeAfter .code (trimChars cs) = .lineComment := by
    cases after with
    | nil =>
      rw [List.append_nil] at h
      exact .inl h
    | cons c blanks =>
      have hapart := apart_of_isBlank (hafter c List.mem_cons_self)
      have hproper := proper_modeAfter hcode (trimChars cs)
      refine or_iff_not_imp_right.2 fun hline => ?_
      have hblanks := modeAfter_blanks hproper hafter (.inl hline) []
      rw [List.append_nil] at hblanks
      exact hblanks.symm.trans ((scan_append hapart hcode _ blanks).2.symm.trans h)
  rw [modeAfter_newline hcode]
  rcases hends with hends | hends
  · rw [hends]
    rfl
  · rw [hends]
    rfl

/-- What stands between two statements that are put together. -/
def seam : String := "\n;\n"

theorem statementChars_trimChars (h : ∀ p ∈ scan .code cs, Within p.2) :
    statementChars (trimChars cs) = statementChars cs := by
  have htrimmed : ∀ p ∈ scan .code (trimChars cs), Within p.2 :=
    fun p hp => h p (scan_trimChars_subset cs hp)
  rw [statementChars_of_within h, statementChars_of_within htrimmed, Text.trimChars_trimChars]

/-- One stretch is no statement or one statement, its trimmed part. -/
theorem statementChars_stretch (h : ∀ p ∈ scan .code cs, Within p.2) :
    statementChars cs = [] ∨ statementChars cs = [trimChars cs] := by
  rw [statementChars_of_within h]
  by_cases hnil : trimChars cs = []
  · rw [hnil]
    exact .inl rfl
  · exact .inr (List.filter_eq_self.2 (by simpa using hnil))

theorem statementChars_joined_stretch (h : ∀ p ∈ scan .code cs, Within p.2) :
    statementChars (seam.toList.intercalate (statementChars cs)) = statementChars cs := by
  rcases statementChars_stretch h with hnone | hone
  · rw [hnone]
    rfl
  · have htrimmed := statementChars_trimChars h
    rw [hone] at htrimmed ⊢
    rwa [List.intercalate_singleton]

/-- The statements of a script, put together, have the same statements. -/
theorem statementChars_joined (cs : List Char) :
    statementChars (seam.toList.intercalate (statementChars cs)) = statementChars cs := by
  induction cs using terminator_induction with
  | alone cs hwithin => exact statementChars_joined_stretch hwithin
  | followed front rest hwithin hcode ih =>
    rw [statementChars_append hcode]
    rcases statementChars_stretch hwithin with hnone | hone
    · rw [hnone, List.nil_append]
      exact ih
    · by_cases hrest : statementChars rest = []
      · rw [hrest, List.append_nil]
        exact statementChars_joined_stretch hwithin
      · have htrimmed := statementChars_trimChars hwithin
        -- the first newline of the seam brings the trimmed stretch back to code
        have hsplit : seam.toList.intercalate ([trimChars front] ++ statementChars rest) =
            trimChars front ++ ['\n'] ++
              ';' :: '\n' :: seam.toList.intercalate (statementChars rest) := by
          rw [List.singleton_append, List.intercalate_cons_of_ne_nil hrest]
          simp [seam]
        have hafter : statementChars ('\n' :: seam.toList.intercalate (statementChars rest)) =
            statementChars rest := by
          rw [← statementChars_trimLeft, trimLeft_of_isBlank (by decide), statementChars_trimLeft]
          exact ih
        rw [hone, hsplit, statementChars_append (modeAfter_trimmed hcode),
          statementChars_concat (by decide), htrimmed, hone, hafter]

/-- Scripts are put together by a semicolon where the first one ends in code. The statements of a
script stand in it in order, with nothing but white space and terminators around them, each of them
is the one statement of its own text, and put together they have the same statements again. -/
theorem statements_composed :
    (∀ a b : String, modeAfter .code a.toList = .code →
      statements (a ++ ";" ++ b) = statements a ++ statements b) ∧
    ∀ script : String,
      Laid (scan .code script.toList) ((statements script).map String.toList) ∧
      (∀ statement ∈ statements script, statements statement = [statement]) ∧
      statements ("\n;\n".intercalate (statements script)) = statements script := by
  have hchars : ∀ script : String,
      (statements script).map String.toList = statementChars script.toList := by
    intro script
    simp [statements]
  refine ⟨fun a b hcode => ?_, fun script => ⟨?_, fun _ => statements_of_mem, ?_⟩⟩
  · have hwhole : (a ++ ";" ++ b).toList = a.toList ++ ';' :: b.toList := by simp
    rw [statements, hwhole, statementChars_append hcode, List.map_append]
    rfl
  · rw [hchars]
    exact laid_statementChars script.toList
  · rw [statements, String.toList_intercalate, hchars]
    exact congrArg (List.map String.ofList) (statementChars_joined script.toList)

/-- The first script ends in code because of its last character, and the last one in a comment. -/
theorem statements_composed_comments :
    modeAfter .code "SELECT 'a;' -- one;\n".toList = .code ∧
      statements ("SELECT 'a;' -- one;\n" ++ ";" ++ "/* two; */ DROP TABLE t; -- three") =
        ["SELECT 'a;' -- one;", "/* two; */ DROP TABLE t", "-- three"] := by
  have hcode : modeAfter .code "SELECT 'a;' -- one;\n".toList = .code := by decide +kernel
  refine ⟨hcode, ?_⟩
  rw [statements_composed.1 _ _ hcode]
  decide +kernel

end SqlEngine.Script
