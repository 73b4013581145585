import SqlEngine.Proofs.Script.Modes
import SqlEngine.Proofs.Script.Tokens

/-!
# The pass over a script, token by token

Between two tokens the pass over a script is in code, whatever stands before. What it marks on the
way over a gap, a string, a number, a word or a mark is said here once, and the way over a longer
text is put together from such stretches. A semicolon is the only token with a terminator in it,
apart from names between grave accents, which the pass does not know.
-/
namespace SqlEngine.Script

open Lexer

/-- From a mode the pass comes to `after` in code, and what it marks on its way is allowed. -/
def Passes (allowed : Role → Prop) (mode : Mode) (cs after : List Char) : Prop :=
  ∃ marked, scan mode cs = marked ++ scan .code after ∧ ∀ p ∈ marked, allowed p.2

/-- Neither a terminator nor part of a comment. -/
def Quiet (role : Role) : Prop := role = .code ∨ role = .quoted

/-- Not a terminator. -/
def Within (role : Role) : Prop := role ≠ .terminator

instance (role : Role) : Decidable (Within role) := inferInstanceAs (Decidable (_ ≠ _))

theorem Quiet.within {role : Role} (h : Quiet role) : Within role := by
  rcases h with rfl | rfl
  · decide
  · decide

section Composition

variable {allowed : Role → Prop} {mode next : Mode} {cs mid after rest : List Char} {c d : Char}
  {role role' : Role}

theorem Passes.refl : Passes allowed .code cs cs := ⟨[], rfl, by simp⟩

/-- The pass goes on behind a stretch that is allowed. -/
theorem Passes.step {marked : List (Char × Role)} (hscan : scan mode cs = marked ++ scan next mid)
    (hallowed : ∀ p ∈ marked, allowed p.2) (h : Passes allowed next mid after) :
    Passes allowed mode cs after := by
  obtain ⟨marked', hscan', hallowed'⟩ := h
  refine ⟨marked ++ marked', ?_, ?_⟩
  · rw [hscan, hscan', List.append_assoc]
  · exact List.forall_mem_append.2 ⟨hallowed, hallowed'⟩

theorem Passes.cons (hscan : scan mode (c :: rest) = (c, role) :: scan next rest)
    (hrole : allowed role) (h : Passes allowed next rest after) :
    Passes allowed mode (c :: rest) after := by
  have hstep : scan mode (c :: rest) = [(c, role)] ++ scan next rest := hscan
  exact .step hstep (by simpa using hrole) h

/-- Some characters are marked in pairs. -/
theorem Passes.cons_cons
    (hscan : scan mode (c :: d :: rest) = (c, role) :: (d, role') :: scan next rest)
    (hrole : allowed role) (hrole' : allowed role') (h : Passes allowed next rest after) :
    Passes allowed mode (c :: d :: rest) after := by
  have hstep : scan mode (c :: d :: rest) = [(c, role), (d, role')] ++ scan next rest := hscan
  exact .step hstep (by simpa using ⟨hrole, hrole'⟩) h

theorem Passes.trans (h : Passes allowed mode cs mid) (h' : Passes allowed .code mid after) :
    Passes allowed mode cs after := by
  obtain ⟨marked, hscan, hallowed⟩ := h
  exact .step hscan hallowed h'

theorem Passes.mono {allowed' : Role → Prop} (hle : ∀ role, allowed role → allowed' role)
    (h : Passes allowed mode cs after) : Passes allowed' mode cs after := by
  obtain ⟨marked, hmarked, hallowed⟩ := h
  exact ⟨marked, hmarked, fun p hp => hle _ (hallowed p hp)⟩

end Composition

/-- In code the character begins neither a comment nor a string, and it ends no statement. -/
def Ordinary (c : Char) : Prop := c ≠ '-' ∧ c ≠ '/' ∧ c ≠ '\'' ∧ c ≠ '"' ∧ c ≠ ';'

instance (c : Char) : Decidable (Ordinary c) := inferInstanceAs (Decidable (_ ∧ _))

/-- The characters that are not ordinary. -/
def signs : List Char := ['-', '/', '\'', '"', ';']

/-- A class of characters without the signs has only ordinary ones. -/
theorem ordinary_of_class {p : Char → Bool} (hp : signs.all (!p ·) = true) {c : Char}
    (h : p c = true) : Ordinary c := by
  have hne : ∀ sign ∈ signs, c ≠ sign := by
    rintro sign hsign rfl
    have hnone := List.all_eq_true.1 hp c hsign
    rw [h] at hnone
    cases hnone
  simpa [signs, Ordinary] using hne

theorem ordinary_of_continuesWord {c : Char} (h : Text.continuesWord c = true) : Ordinary c :=
  ordinary_of_class (by decide +kernel) h

theorem not_opensComment_of_ne {c : Char} {rest : List Char} (hminus : c ≠ '-')
    (hslash : c ≠ '/') : ¬ OpensComment c rest := by
  rintro (⟨hc, -⟩ | ⟨hc, -⟩)
  · exact hminus hc
  · exact hslash hc

/-- A character of code that is no quote, begins no comment and is no semicolon. -/
theorem scan_ofCode {c : Char} {rest : List Char} (hopens : ¬ OpensComment c rest)
    (hquote : ¬ (c = '\'' ∨ c = '"')) (hc : c ≠ ';') :
    scan .code (c :: rest) = (c, .code) :: scan .code rest := by
  have hnone : ¬ (decide (c = '\'') || decide (c = '"')) = true := by
    simpa using hquote
  have hrole : Role.ofCode c = .code := by
    rw [Role.ofCode, if_neg hc, if_neg hnone]
  have hmode : Mode.afterCode c = .code := if_neg hnone
  rw [scan_code hopens, hrole, hmode]

theorem Ordinary.scan {c : Char} (h : Ordinary c) (rest : List Char) :
    scan .code (c :: rest) = (c, .code) :: scan .code rest := by
  obtain ⟨hminus, hslash, hsingle, hdouble, hsemicolon⟩ := h
  exact scan_ofCode (not_opensComment_of_ne hminus hslash) (not_or.2 ⟨hsingle, hdouble⟩) hsemicolon

theorem passes_ordinary {c : Char} {rest after : List Char} (h : Ordinary c)
    (hrest : Passes Quiet .code rest after) : Passes Quiet .code (c :: rest) after :=
  .cons (h.scan rest) (.inl rfl) hrest

/-- A run of ordinary characters is code. -/
theorem passes_run {run : List Char} (h : ∀ c ∈ run, Ordinary c) (after : List Char) :
    Passes Quiet .code (run ++ after) after := by
  induction run with
  | nil => exact .refl
  | cons c rest ih =>
    exact passes_ordinary (h c List.mem_cons_self) (ih fun d hd => h d (List.mem_cons_of_mem c hd))

theorem passes_dropWhile {p : Char → Bool} (hp : signs.all (!p ·) = true) (cs : List Char) :
    Passes Quiet .code cs (cs.dropWhile p) := by
  have hall : ∀ c ∈ cs.takeWhile p, Ordinary c :=
    fun c hc => ordinary_of_class hp (List.mem_takeWhile_imp hc)
  have hrun := passes_run hall (cs.dropWhile p)
  rwa [List.takeWhile_append_dropWhile] at hrun

/-- No statement ends in a gap between two tokens. -/
theorem passes_skipGap (s : Skipping) (cs : List Char) :
    Passes Within (modeOf s) cs (skipGap s cs) := by
  fun_induction skipGap s cs with
  | case1 s => exact ⟨[], by simp, by simp⟩
  | case2 rest ih | case3 rest ih | case8 rest ih =>
    exact .cons_cons rfl (by decide) (by decide) ih
  | case4 c rest line block hblank ih =>
    have hordinary : Ordinary c := ordinary_of_class (by decide) hblank
    exact .cons (hordinary.scan rest) (by decide) ih
  | case5 => exact .refl
  | case6 rest ih =>
    have hend : scan .lineComment ('\n' :: rest) = ('\n', .code) :: scan .code rest := rfl
    exact .cons hend (by decide) ih
  | case7 c rest hc ih =>
    have hscan : scan .lineComment (c :: rest) = (c, .comment) :: scan .lineComment rest := by
      rw [scan, if_neg hc]
    exact .cons hscan (by decide) ih
  | case9 c rest hend ih =>
    exact .cons (scan_blockComment (not_closesComment hend)) (by decide) ih

/-- A quote begins a string. -/
theorem scan_quote {quote : Char} (h : quote = '\'' ∨ quote = '"') (rest : List Char) :
    scan .code (quote :: rest) = (quote, .quoted) :: scan (.quoted quote) rest := by
  have hrole : Role.ofCode quote = .quoted := by
    rcases h with rfl | rfl
    · decide
    · decide
  rw [scan_code (not_opensComment_of_quote h), hrole, (of_quote h).2.2]

/-- A string is left behind its closing quote. -/
theorem passes_readString? {quote : Char} (hquote : quote = '\'' ∨ quote = '"')
    {cs content after : List Char} (h : readString? quote cs = some (content, after)) :
    Passes Quiet (.quoted quote) cs after := by
  have hslash : quote ≠ '\\' := (of_quote hquote).2.1
  fun_induction readString? quote cs generalizing content after with
  | case1 | case3 => cases h
  | case2 =>
    cases h
    refine .cons (scan_quoted (.inr rfl)) (.inr rfl) ?_
    rw [if_pos rfl]
    exact .refl
  | case4 rest ih =>
    obtain ⟨⟨content', after'⟩, hread, heq⟩ := Option.map_eq_some_iff.1 h
    cases heq
    refine .cons (scan_quoted (.inl hslash)) (.inr rfl) ?_
    rw [if_pos rfl]
    exact .cons (scan_quote hquote rest) (.inr rfl) (ih hread)
  | case5 d rest hd =>
    cases h
    refine .cons (scan_quoted (.inl hslash)) (.inr rfl) ?_
    rw [if_pos rfl]
    exact .refl
  | case6 d rest hq ih =>
    obtain ⟨⟨content', after'⟩, hread, heq⟩ := Option.map_eq_some_iff.1 h
    cases heq
    exact .cons_cons rfl (.inr rfl) (.inr rfl) (ih hread)
  | case7 c d rest hc hpair ih =>
    obtain ⟨⟨content', after'⟩, hread, heq⟩ := Option.map_eq_some_iff.1 h
    cases heq
    refine .cons (scan_quoted (.inl hpair)) (.inr rfl) ?_
    rw [if_neg hc]
    exact ih hread

theorem passes_quote {quote : Char} (hquote : quote = '\'' ∨ quote = '"')
    {cs content after : List Char} (h : readString? quote cs = some (content, after)) :
    Passes Quiet .code (quote :: cs) after :=
  .cons (scan_quote hquote cs) (.inr rfl) (passes_readString? hquote h)

/-- A sign in front of digits begins no comment. -/
theorem passes_readSign {cs : List Char} (hpower : powerOf cs ≠ []) :
    Passes Quiet .code cs (readSign cs).2 := by
  by_cases hsign : cs.head? = some '+' ∨ cs.head? = some '-'
  · obtain ⟨c, rest, hc, rfl⟩ := exists_of_head? hsign
    have hread : readSign (c :: rest) = ([c], rest) := by
      simp [readSign, hc]
    have hrest : rest.head? ≠ some '-' := by
      intro hhead
      obtain ⟨r, rfl⟩ := List.head?_eq_some_iff.1 hhead
      refine hpower ?_
      rw [powerOf, hread]
      rfl
    have hscan : scan .code (c :: rest) = (c, .code) :: scan .code rest := by
      refine scan_ofCode ?_ ?_ ?_
      · rintro (⟨-, hhead⟩ | ⟨rfl, -⟩)
        · exact hrest hhead
        · revert hc
          decide
      · rcases hc with rfl | rfl <;> decide
      · rcases hc with rfl | rfl <;> decide
    rw [hread]
    exact .cons hscan (.inl rfl) .refl
  · obtain ⟨hplus, hminus⟩ := not_or.1 hsign
    rw [readSign_of_head hplus hminus]
    exact .refl

theorem passes_readExponent (cs : List Char) : Passes Quiet .code cs (readExponent cs).2 := by
  by_cases hletter : cs.head? = some 'e' ∨ cs.head? = some 'E'
  · obtain ⟨c, rest, hc, rfl⟩ := exists_of_head? hletter
    have hordinary : Ordinary c := by
      rcases hc with rfl | rfl <;> decide
    rw [readExponent_cons hc]
    split
    · exact .refl
    · next hpower =>
      exact passes_ordinary hordinary
        ((passes_readSign hpower).trans (passes_dropWhile (by decide) _))
  · obtain ⟨he, hE⟩ := not_or.1 hletter
    rw [readExponent_of_head he hE]
    exact .refl

theorem passes_readNumber (cs : List Char) : Passes Quiet .code cs (readNumber cs).2 := by
  have hdigits : Passes Quiet .code cs (readDigits cs).2 := passes_dropWhile (by decide) cs
  exact hdigits.trans (passes_readExponent _)

/-- The second character of a mark, if it has one, is an equals sign or a greater sign. -/
theorem readMark?_cases {c : Char} {rest after : List Char} {mark : Mark}
    (h : readMark? c rest = some (mark, after)) :
    after = rest ∨ rest = '=' :: after ∨ rest = '>' :: after := by
  unfold readMark? at h
  split at h <;> simp_all

/-- The semicolon is the only mark that begins with a semicolon. -/
theorem readMark?_semicolon {c : Char} {rest after : List Char} {mark : Mark}
    (h : readMark? c rest = some (mark, after)) :
    (mark = .semicolon ↔ c = ';') ∧ (mark = .semicolon → after = rest) := by
  unfold readMark? at h
  split at h
  all_goals cases h
  all_goals exact ⟨by decide, by simp⟩

/-- No comment begins where a token does. -/
theorem not_opensComment_of_skipGap {s : Skipping} {cs tail : List Char} {c : Char}
    (h : skipGap s cs = c :: tail) : ¬ OpensComment c tail := by
  fun_induction skipGap s cs with
  | case1 => cases h
  | case2 rest ih | case3 rest ih | case6 rest ih | case8 rest ih => exact ih h
  | case4 c' rest line block hblank ih => exact ih h
  | case5 c' rest line block hblank =>
    cases h
    exact not_opensComment line block
  | case7 c' rest hc ih => exact ih h
  | case9 c' rest hend ih => exact ih h

/-- A mark that is no semicolon is code. -/
theorem passes_readMark? {c : Char} {rest after : List Char} {mark : Mark}
    (hopens : ¬ OpensComment c rest) (hquote : ¬ (c = '\'' ∨ c = '"'))
    (hread : readMark? c rest = some (mark, after)) (hmark : mark ≠ .semicolon) :
    Passes Quiet .code (c :: rest) after := by
  have hc : c ≠ ';' := fun hc => hmark ((readMark?_semicolon hread).1.2 hc)
  refine .cons (scan_ofCode hopens hquote hc) (.inl rfl) ?_
  rcases readMark?_cases hread with rfl | rfl | rfl
  · exact .refl
  · exact passes_ordinary (by decide) .refl
  · exact passes_ordinary (by decide) .refl

theorem wordKind_ne_mark (word : List Char) (mark : Mark) : wordKind word ≠ .mark mark := by
  rw [wordKind]
  split
  · exact TokenKind.noConfusion
  · exact TokenKind.noConfusion

/-- A semicolon is read where one stands. -/
theorem readKind?_semicolon {c : Char} {rest after : List Char}
    (h : readKind? c rest = some (.mark .semicolon, after)) : c = ';' ∧ after = rest := by
  rcases readKind?_cases h with ⟨_, -, -, hkind⟩ | ⟨_, -, -, hkind⟩ | ⟨_, -, -, hkind, -⟩ |
    ⟨-, hkind, -⟩ | ⟨mark, -, hmark, hkind⟩
  · cases hkind
  · cases hkind
  · cases hkind
  · exact absurd hkind.symm (wordKind_ne_mark _ _)
  · cases hkind
    obtain ⟨hiff, hafter⟩ := readMark?_semicolon hmark
    exact ⟨hiff.1 rfl, hafter rfl⟩

/-- Taken for code, the name ends no statement, and it leaves the pass in code. -/
def Inert (name : List Char) : Prop :=
  modeAfter .code name = .code ∧ ∀ p ∈ scan .code name, Within p.2

instance (name : List Char) : Decidable (Inert name) := inferInstanceAs (Decidable (_ ∧ _))

theorem eq_of_readQuotedName? {cs name after : List Char}
    (h : readQuotedName? cs = some (name, after)) : cs = name ++ '\x60' :: after := by
  fun_induction readQuotedName? cs generalizing name after with
  | case1 => cases h
  | case2 rest =>
    cases h
    rfl
  | case3 c rest hc ih =>
    obtain ⟨⟨name', after'⟩, hread, heq⟩ := Option.map_eq_some_iff.1 h
    cases heq
    rw [ih hread]
    rfl

/-- A name between grave accents that is inert ends no statement either. -/
theorem passes_readQuotedName? {cs name after : List Char}
    (h : readQuotedName? cs = some (name, after)) (hname : Inert name) :
    Passes Within .code ('\x60' :: cs) after := by
  have haccent : Ordinary '\x60' := by decide
  have hscan : scan .code cs = scan .code name ++ scan .code ('\x60' :: after) := by
    rw [eq_of_readQuotedName? h]
    have hcode : Mode.code.Proper := trivial
    have happend := (scan_append (d := '\x60') (by decide) hcode name after).1
    rwa [hname.1] at happend
  have hclose : Passes Within .code ('\x60' :: after) after :=
    (passes_ordinary haccent .refl).mono fun _ => Quiet.within
  exact .cons (haccent.scan cs) (by decide) (.step hscan hname.2 hclose)

/-- No token but a semicolon ends a statement, if it is no name between grave accents that looks
like more than a name. -/
theorem passes_token {c : Char} {rest after : List Char} {kind : TokenKind}
    (hopens : ¬ OpensComment c rest) (hread : readKind? c rest = some (kind, after))
    (hkind : kind ≠ .mark .semicolon)
    (hname : c = '\x60' → ∀ name, rest = name ++ '\x60' :: after → Inert name) :
    Passes Within .code (c :: rest) after := by
  have hquiet : Passes Quiet .code (c :: rest) after → Passes Within .code (c :: rest) after :=
    .mono fun _ => Quiet.within
  rcases readKind?_cases hread with ⟨_, hquote, hstring, -⟩ | ⟨name, rfl, hquoted, -⟩ |
    ⟨_, -, -, -, rfl⟩ | ⟨hword, -, rfl⟩ | ⟨mark, hquote, hmark, rfl⟩
  · exact hquiet (passes_quote hquote hstring)
  · exact passes_readQuotedName? hquoted (hname rfl name (eq_of_readQuotedName? hquoted))
  · exact hquiet (passes_readNumber (c :: rest))
  · have hfirst : Ordinary c := ordinary_of_continuesWord (Text.continuesWord_of_startsWord hword)
    exact hquiet (passes_ordinary hfirst (passes_dropWhile (by decide +kernel) rest))
  · exact hquiet (passes_readMark? hopens hquote hmark fun heq => hkind (congrArg _ heq))

end SqlEngine.Script
