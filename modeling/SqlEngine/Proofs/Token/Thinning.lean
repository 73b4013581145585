import SqlEngine.Proofs.Script.Thinning
import SqlEngine.Proofs.Token.Alone
import SqlEngine.Proofs.Token.Assembly
import SqlEngine.Proofs.Token.Cuts

/-!
# Tokens of a thinned text

Thinning a text changes the gaps between its tokens, but no gap goes away or comes into being. The
tokens stay as they are unless one of them has white space that can be squeezed, as a string may
have that goes over the end of a line.
-/
namespace SqlEngine.Script.Thinned

open Lexer
open Text (isBlank)

variable {c : Char} {cs ds rest rest' : List Char}

/-- A character that is not white space is ahead in both texts or in none. -/
theorem head?_iff (h : Thinned cs ds) (hc : isBlank c = false) :
    ds.head? = some c ↔ cs.head? = some c :=
  ⟨head?_of_lead h.lead_eq.symm hc, head?_of_lead h.lead_eq hc⟩

/-- A run of characters that are no white space is cut off alike. -/
theorem span {p : Char → Bool} (hp : ∀ c, p c = true → isBlank c = false) (h : Thinned cs ds) :
    ds.takeWhile p = cs.takeWhile p ∧ Thinned (cs.dropWhile p) (ds.dropWhile p) := by
  induction cs generalizing ds with
  | nil =>
    rw [h.eq_nil_iff.2 rfl]
    exact ⟨rfl, .nil⟩
  | cons c rest ih =>
    cases hc : p c with
    | true =>
      obtain ⟨rest', rfl, hrest⟩ := h.exists_cons (hp c hc)
      obtain ⟨htake, hdrop⟩ := ih hrest
      rw [List.takeWhile_cons_of_pos hc, List.takeWhile_cons_of_pos hc,
        List.dropWhile_cons_of_pos hc, List.dropWhile_cons_of_pos hc, htake]
      exact ⟨rfl, hdrop⟩
    | false =>
      obtain ⟨d, rest', rfl⟩ : ∃ d rest', ds = d :: rest' := by
        refine List.exists_cons_of_ne_nil fun hnil => ?_
        cases h.eq_nil_iff.1 hnil
      have hd : p d = false := by
        by_contra hd
        have hd' : p d = true := by simpa using hd
        have hhead := (h.head?_iff (hp d hd')).1 rfl
        cases hhead
        exact hd hc
      simpa [List.takeWhile_cons, List.dropWhile_cons, hc, hd] using h

theorem readSign (h : Thinned cs ds) :
    (readSign ds).1 = (readSign cs).1 ∧ Thinned (readSign cs).2 (readSign ds).2 := by
  by_cases hsign : cs.head? = some '+' ∨ cs.head? = some '-'
  · obtain ⟨c, rest, hc, rfl⟩ := exists_of_head? hsign
    have hblank : isBlank c = false := by
      rcases hc with rfl | rfl <;> decide
    obtain ⟨rest', rfl, hrest⟩ := h.exists_cons hblank
    rw [Lexer.readSign, Lexer.readSign, if_pos (by simpa using hc), if_pos (by simpa using hc)]
    exact ⟨rfl, hrest⟩
  · obtain ⟨hplus, hminus⟩ := not_or.1 hsign
    rw [readSign_of_head hplus hminus, readSign_of_head (mt (h.head?_iff (by decide)).1 hplus)
      (mt (h.head?_iff (by decide)).1 hminus)]
    exact ⟨rfl, h⟩

theorem readExponent (h : Thinned cs ds) :
    (readExponent ds).1 = (readExponent cs).1 ∧
      Thinned (readExponent cs).2 (readExponent ds).2 := by
  by_cases hletter : cs.head? = some 'e' ∨ cs.head? = some 'E'
  · obtain ⟨c, rest, hc, rfl⟩ := exists_of_head? hletter
    have hblank : isBlank c = false := by
      rcases hc with rfl | rfl <;> decide
    obtain ⟨rest', rfl, hrest⟩ := h.exists_cons hblank
    obtain ⟨hsign, hbehind⟩ := hrest.readSign
    obtain ⟨hpower, hafter⟩ := hbehind.span fun _ => Text.isBlank_of_isDigit
    have hpower' : powerOf rest' = powerOf rest := hpower
    rw [readExponent_cons hc, readExponent_cons hc, hpower', hsign]
    split
    · exact ⟨rfl, h⟩
    · exact ⟨rfl, hafter⟩
  · obtain ⟨he, hE⟩ := not_or.1 hletter
    rw [readExponent_of_head he hE, readExponent_of_head (mt (h.head?_iff (by decide)).1 he)
      (mt (h.head?_iff (by decide)).1 hE)]
    exact ⟨rfl, h⟩

theorem readNumber (h : Thinned cs ds) :
    (readNumber ds).1 = (readNumber cs).1 ∧ Thinned (readNumber cs).2 (readNumber ds).2 := by
  obtain ⟨hdigits, hbehind⟩ := h.span fun _ hc => (isPlain_of_isDigit_or_point hc).1
  obtain ⟨hexponent, hafter⟩ := hbehind.readExponent
  simp only [Lexer.readNumber, readDigits, hdigits]
  exact ⟨congrArg _ hexponent, hafter⟩

/-- What a mark is and where it ends is decided by two characters. -/
theorem readMark?_cons (c d : Char) (rest : List Char) :
    Lexer.readMark? c (d :: rest) =
      (Lexer.readMark? c [d]).map fun (mark, after) => (mark, after ++ rest) := by
  by_cases hd : d = '=' ∨ d = '>'
  · have hsecond : Lexer.readMark? c ([d] ++ rest) =
        (Lexer.readMark? c [d]).map fun (mark, after) => (mark, after ++ rest) :=
      readMark?_second (f := fun cs => cs ++ rest) hd rfl
    exact hsecond
  · obtain ⟨heq, hgt⟩ := not_or.1 hd
    have hone : Lexer.readMark? c [d] = (Lexer.readMark? c []).map fun (mark, _) => (mark, [d]) :=
      readMark?_of_head (by simpa using heq) (by simpa using hgt)
    rw [readMark?_of_head (by simpa using heq) (by simpa using hgt), hone]
    cases Lexer.readMark? c [] <;> rfl

/-- A mark is read alike. -/
theorem readMark? {mark : Mark} {after : List Char} (h : Thinned rest rest')
    (hread : readMark? c rest = some (mark, after)) :
    ∃ front after', rest = front ++ after ∧ rest' = front ++ after' ∧ Thinned after after' ∧
      Lexer.readMark? c rest' = some (mark, after') := by
  by_cases hsecond : rest.head? = some '=' ∨ rest.head? = some '>'
  · obtain ⟨d, r, hd, rfl⟩ := exists_of_head? hsecond
    have hblank : isBlank d = false := by
      rcases hd with rfl | rfl <;> decide
    obtain ⟨r', rfl, hr⟩ := h.exists_cons hblank
    rw [readMark?_cons] at hread
    obtain ⟨⟨mark, kept⟩, hmark, heq⟩ := Option.map_eq_some_iff.1 hread
    cases heq
    obtain ⟨front, hfront, -⟩ := readMark?_alone hmark
    refine ⟨front, kept ++ r', ?_, ?_, hr.prepend kept, ?_⟩
    · rw [← List.append_assoc, ← hfront]
      rfl
    · rw [← List.append_assoc, ← hfront]
      rfl
    · rw [readMark?_cons, hmark]
      rfl
  · obtain ⟨heq, hgt⟩ := not_or.1 hsecond
    rw [readMark?_of_head heq hgt] at hread
    obtain ⟨⟨mark, _⟩, hmark, heq'⟩ := Option.map_eq_some_iff.1 hread
    cases heq'
    refine ⟨[], rest', rfl, rfl, h, ?_⟩
    rw [readMark?_of_head (mt (h.head?_iff (by decide)).1 heq)
      (mt (h.head?_iff (by decide)).1 hgt), hmark]
    rfl

end SqlEngine.Script.Thinned

namespace SqlEngine.Lexer

open Script
open Text (isBlank)

variable {quote : Char} {cs content after : List Char}

/-- Behind a string stands no further quote of its kind. -/
theorem head?_of_readString? (h : readString? quote cs = some (content, after)) :
    after.head? ≠ some quote := by
  fun_induction readString? quote cs generalizing content after with
  | case1 | case3 => cases h
  | case2 =>
    cases h
    simp
  | case4 rest ih | case6 d rest hquote ih | case7 c d rest hquote hpair ih =>
    obtain ⟨⟨content, after⟩, hread, heq⟩ := Option.map_eq_some_iff.1 h
    cases heq
    exact ih hread
  | case5 d rest hd =>
    cases h
    simpa using hd

/-- A string ends with its quote, and is read alike in front of anything but another quote. -/
theorem readString?_append {front : List Char} (h : readString? quote front = some (content, [])) :
    (∃ body, front = body ++ [quote]) ∧ ∀ after : List Char, after.head? ≠ some quote →
      readString? quote (front ++ after) = some (content, after) := by
  fun_induction readString? quote front generalizing content with
  | case1 | case3 => cases h
  | case2 =>
    cases h
    exact ⟨⟨[], rfl⟩, fun after hafter => readString?_close hafter⟩
  | case4 rest ih =>
    obtain ⟨⟨content, _⟩, hread, heq⟩ := Option.map_eq_some_iff.1 h
    cases heq
    obtain ⟨⟨body, rfl⟩, happend⟩ := ih hread
    refine ⟨⟨quote :: quote :: body, rfl⟩, fun after hafter => ?_⟩
    rw [List.cons_append, List.cons_append, readString?, if_pos rfl, if_pos rfl,
      happend after hafter]
    rfl
  | case5 d rest hd => cases h
  | case6 d rest hquote ih =>
    obtain ⟨⟨content, _⟩, hread, heq⟩ := Option.map_eq_some_iff.1 h
    cases heq
    obtain ⟨⟨body, rfl⟩, happend⟩ := ih hread
    refine ⟨⟨'\\' :: d :: body, rfl⟩, fun after hafter => ?_⟩
    rw [List.cons_append, List.cons_append, readString?, if_neg hquote, if_pos rfl,
      happend after hafter]
    rfl
  | case7 c d rest hquote hpair ih =>
    obtain ⟨⟨content, _⟩, hread, heq⟩ := Option.map_eq_some_iff.1 h
    cases heq
    obtain ⟨⟨body, hbody⟩, happend⟩ := ih hread
    refine ⟨⟨c :: body, congrArg (c :: ·) hbody⟩, fun after hafter => ?_⟩
    rw [List.cons_append, readString?_cons hquote hpair, happend after hafter]
    rfl

theorem readQuotedName?_append {front name : List Char}
    (h : readQuotedName? front = some (name, [])) (after : List Char) :
    readQuotedName? (front ++ after) = some (name, after) := by
  fun_induction readQuotedName? front generalizing name with
  | case1 => cases h
  | case2 =>
    cases h
    rfl
  | case3 c rest hc ih =>
    obtain ⟨⟨name, _⟩, hread, heq⟩ := Option.map_eq_some_iff.1 h
    cases heq
    rw [List.cons_append, readQuotedName?, if_neg hc, ih hread]
    rfl

/-- Up to the mark that closes a token the thinned text is the same, unless white space in the token
can be squeezed. -/
theorem exists_of_closed {c close : Char} {body after ds : List Char}
    (hclose : isBlank close = false)
    (hsteady : squeeze (c :: (body ++ [close])) = c :: (body ++ [close]))
    (h : Thinned (body ++ [close] ++ after) ds) :
    ∃ after', ds = body ++ [close] ++ after' ∧ Thinned after after' := by
  rw [List.append_assoc] at h
  obtain ⟨body', after', rfl, hbody, hafter⟩ := h.exists_append hclose
  have hsame := ((hbody.append (.refl [close])).keep c).eq_of_squeeze hsteady
  refine ⟨after', ?_, hafter⟩
  rw [← (List.cons.inj hsame).2, List.append_assoc]
  rfl

/-- A token of a thinned text is read alike, unless white space in it can be squeezed. -/
theorem readKind?_thinned {c : Char} {front after ds : List Char} {kind : TokenKind}
    (hread : readKind? c (front ++ after) = some (kind, after)) (hc : isBlank c = false)
    (hsteady : squeeze (c :: front) = c :: front) (h : Thinned (front ++ after) ds) :
    ∃ after', ds = front ++ after' ∧ Thinned after after' ∧
      readKind? c ds = some (kind, after') := by
  rw [readKind?_eq] at hread
  split at hread
  · next hquote =>
    obtain ⟨⟨content, _⟩, hstring, heq⟩ := Option.map_eq_some_iff.1 hread
    cases heq
    obtain ⟨_, hfront, halone⟩ := readString?_alone hstring
    cases List.append_cancel_right hfront
    obtain ⟨⟨body, rfl⟩, happend⟩ := readString?_append halone
    obtain ⟨after', rfl, hafter⟩ := exists_of_closed hc hsteady h
    have hhead := mt (hafter.head?_iff hc).1 (head?_of_readString? hstring)
    refine ⟨after', rfl, hafter, ?_⟩
    rw [readKind?_eq, if_pos hquote, happend after' hhead]
    rfl
  · next hquote =>
    split at hread
    · next haccent =>
      obtain ⟨⟨name, _⟩, hname, heq⟩ := Option.map_eq_some_iff.1 hread
      cases heq
      obtain ⟨_, hfront, halone⟩ := readQuotedName?_alone hname
      cases List.append_cancel_right hfront
      obtain rfl : front = name ++ ['\x60'] := eq_of_readQuotedName? halone
      obtain ⟨after', rfl, hafter⟩ := exists_of_closed (by decide) hsteady h
      refine ⟨after', rfl, hafter, ?_⟩
      rw [readKind?_eq, if_neg hquote, if_pos haccent, readQuotedName?_append halone]
      rfl
    · next haccent =>
      split at hread
      · next hdigit =>
        obtain ⟨x, hx, heq⟩ := Option.map_eq_some_iff.1 hread
        obtain ⟨rfl, hrest⟩ := Prod.mk.inj heq
        obtain ⟨hnumber, hafter⟩ := (h.keep c).readNumber
        have hjoin := (readNumber_alone (c :: (front ++ after))).1
        have hjoin' := (readNumber_alone (c :: ds)).1
        rw [hrest] at hjoin hafter
        rw [hnumber, List.append_cancel_right (hjoin.trans (List.cons_append).symm)] at hjoin'
        refine ⟨_, (List.cons.inj hjoin').2.symm, hafter, ?_⟩
        rw [readKind?_eq, if_neg hquote, if_neg haccent, if_pos hdigit, hnumber, hx]
        rfl
      · next hdigit =>
        split at hread
        · next hword =>
          obtain ⟨hkind, hrest⟩ := Prod.mk.inj (Option.some.inj hread)
          obtain ⟨htake, hafter⟩ := h.span fun _ => Text.isBlank_of_continuesWord
          rw [hrest] at hafter
          have hjoin : (front ++ after).takeWhile Text.continuesWord ++
              (front ++ after).dropWhile Text.continuesWord = front ++ after :=
            List.takeWhile_append_dropWhile
          rw [hrest] at hjoin
          have hfront := List.append_cancel_right hjoin
          have hjoin' : ds.takeWhile Text.continuesWord ++ ds.dropWhile Text.continuesWord = ds :=
            List.takeWhile_append_dropWhile
          rw [htake, hfront] at hjoin'
          refine ⟨_, hjoin'.symm, hafter, ?_⟩
          rw [readKind?_eq, if_neg hquote, if_neg haccent, if_neg hdigit, if_pos hword, htake,
            hkind]
        · next hword =>
          obtain ⟨⟨mark, _⟩, hmark, heq⟩ := Option.map_eq_some_iff.1 hread
          cases heq
          obtain ⟨_, after', hfront, rfl, hafter, hread'⟩ := h.readMark? hmark
          cases List.append_cancel_right hfront
          refine ⟨after', rfl, hafter, ?_⟩
          rw [readKind?_eq, if_neg hquote, if_neg haccent, if_neg hdigit, if_neg hword, hread']
          rfl

section Gaps

variable {s : Skipping} {c : Char} {cs ds : List Char}

/-- White space ends no comment but the one that ends with the line. -/
def Skipping.afterBlank (s : Skipping) (c : Char) : Skipping :=
  match s with
  | .lineComment => if c = '\n' then .blanks else .lineComment
  | .blanks => .blanks
  | .blockComment => .blockComment

theorem Skipping.afterBlank_newline (s : Skipping) (c : Char) :
    (s.afterBlank c).afterBlank '\n' = s.afterBlank '\n' := by
  cases s with
  | blanks | blockComment => rfl
  | lineComment =>
    by_cases hc : c = '\n'
    · simp [afterBlank, hc]
    · simp [afterBlank, hc]

theorem skipGap_nil (s : Skipping) : skipGap s [] = [] := by rw [skipGap.eq_def]

theorem skipGap_lineComment (c : Char) (rest : List Char) :
    skipGap .lineComment (c :: rest) =
      if c = '\n' then skipGap .blanks rest else skipGap .lineComment rest := by
  rw [skipGap.eq_def]
  split
  · next heq => cases heq
  · next hmode _ => cases hmode
  · next hmode _ => cases hmode
  · next hmode _ => cases hmode
  · next heq =>
    cases heq
    rfl
  · next hmode _ => cases hmode
  · next hmode _ => cases hmode

theorem skipGap_blockComment {rest : List Char} (h : ¬ ClosesComment c rest) :
    skipGap .blockComment (c :: rest) = skipGap .blockComment rest := by
  rw [skipGap.eq_def]
  split
  · next heq => cases heq
  · next hmode _ => cases hmode
  · next hmode _ => cases hmode
  · next hmode _ => cases hmode
  · next hmode _ => cases hmode
  · next heq =>
    cases heq
    exact absurd ⟨rfl, rfl⟩ h
  · next heq =>
    cases heq
    rfl

theorem skipGap_isBlank (s : Skipping) (hc : isBlank c = true) (rest : List Char) :
    skipGap s (c :: rest) = skipGap (s.afterBlank c) rest := by
  cases s with
  | blanks => exact skipGap_blank hc
  | lineComment =>
    rw [skipGap_lineComment, Skipping.afterBlank]
    split
    · rfl
    · rfl
  | blockComment => exact skipGap_blockComment fun h => (apart_of_isBlank hc).2.1 h.1

/-- White space in front of a text is skipped with what follows it, unless a comment ends with its
line. -/
theorem skipGap_front {blanks : List Char} (hblanks : ∀ c ∈ blanks, isBlank c = true)
    (s : Skipping) (cs : List Char) :
    skipGap (s.afterBlank '\n') (blanks ++ cs) = skipGap (s.afterBlank '\n') cs := by
  induction blanks with
  | nil => rfl
  | cons c rest ih =>
    obtain ⟨hc, hrest⟩ := List.forall_mem_cons.1 hblanks
    have hsame : (s.afterBlank '\n').afterBlank c = s.afterBlank '\n' := by
      cases s <;> rfl
    rw [List.cons_append, skipGap_isBlank _ hc, hsame]
    exact ih hrest

/-- The gaps in front of two texts, the second of them thinned, and what comes behind the gaps. -/
def GapsAlike (s : Skipping) (cs ds : List Char) : Prop :=
  ∃ gap gap', cs = gap ++ skipGap s cs ∧ ds = gap' ++ skipGap s ds ∧ Thinned gap gap' ∧
    Thinned (skipGap s cs) (skipGap s ds)

theorem GapsAlike.prepend {next : Skipping} (front : List Char)
    (hcs : skipGap s (front ++ cs) = skipGap next cs)
    (hds : skipGap s (front ++ ds) = skipGap next ds) (h : GapsAlike next cs ds) :
    GapsAlike s (front ++ cs) (front ++ ds) := by
  obtain ⟨gap, gap', hgap, hgap', hthin, hrest⟩ := h
  refine ⟨front ++ gap, front ++ gap', ?_, ?_, hthin.prepend front, ?_⟩
  · rw [hcs, List.append_assoc, ← hgap]
  · rw [hds, List.append_assoc, ← hgap']
  · rw [hcs, hds]
    exact hrest

theorem GapsAlike.cons {next : Skipping} (hcs : skipGap s (c :: cs) = skipGap next cs)
    (hds : skipGap s (c :: ds) = skipGap next ds) (h : GapsAlike next cs ds) :
    GapsAlike s (c :: cs) (c :: ds) :=
  h.prepend [c] hcs hds

theorem gapsAlike_blank (hc : isBlank c = true) (h : Thinned (c :: cs) ds)
    (ih : ∀ ds, Thinned cs ds → GapsAlike (s.afterBlank c) cs ds) : GapsAlike s (c :: cs) ds := by
  have hnewline : isBlank '\n' = true := by decide
  cases h with
  | keep _ h => exact (ih _ h).cons (skipGap_isBlank s hc _) (skipGap_isBlank s hc _)
  | @before _ _ ds _ h =>
    obtain ⟨gap, gap', hgap, hgap', hthin, hrest⟩ := ih _ h
    have hsame : skipGap (s.afterBlank c) ('\n' :: ds) = skipGap s ('\n' :: ds) := by
      rw [skipGap_isBlank _ hnewline, skipGap_isBlank _ hnewline, Skipping.afterBlank_newline]
    rw [hsame] at hgap' hrest
    rw [← skipGap_isBlank s hc] at hgap hrest
    cases gap' with
    | nil =>
      have hshort := (skipGap_suffix (s.afterBlank '\n') ds).length_le
      have hlength := congrArg List.length hgap'
      rw [skipGap_isBlank _ hnewline, List.nil_append, List.length_cons] at hlength
      omega
    | cons d gap' =>
      obtain ⟨rfl, -⟩ := List.cons.inj hgap'
      exact ⟨c :: gap, '\n' :: gap', congrArg (c :: ·) hgap, hgap', .before hc hthin, hrest⟩
  | @behind blanks _ ds hblanks h =>
    obtain ⟨gap, gap', hgap, hgap', hthin, hrest⟩ := ih _ h
    obtain ⟨front, hfront⟩ := skipGap_suffix (s.afterBlank '\n') ds
    rw [skipGap_front hblanks] at hgap' hrest
    rw [← skipGap_isBlank s hnewline] at hgap hgap' hrest hfront
    rw [← skipGap_isBlank s hnewline] at hrest
    have hcut : gap' = blanks ++ front := by
      refine List.append_cancel_right (hgap'.symm.trans ?_)
      rw [List.append_assoc, hfront]
    rw [hcut] at hthin
    exact ⟨'\n' :: gap, '\n' :: front, congrArg _ hgap, congrArg _ hfront.symm,
      .behind hblanks hthin, hrest⟩

/-- Between the tokens of a thinned text gaps are skipped that are thinned themselves. -/
theorem gapsAlike (s : Skipping) (h : Thinned cs ds) : GapsAlike s cs ds := by
  fun_induction skipGap s cs generalizing ds with
  | case1 s =>
    obtain rfl := h.eq_nil_iff.2 rfl
    refine ⟨[], [], ?_, ?_, .nil, ?_⟩
    all_goals rw [skipGap_nil]
    · rfl
    · rfl
    · exact .nil
  | case2 rest ih | case3 rest ih | case8 rest ih =>
    obtain ⟨_, rfl, hnext⟩ := h.exists_cons (by decide)
    obtain ⟨_, rfl, hrest⟩ := hnext.exists_cons (by decide)
    exact (ih hrest).prepend [_, _] rfl rfl
  | case4 c rest line block hblank ih => exact gapsAlike_blank hblank h fun _ => ih
  | case5 c rest line block hblank =>
    obtain ⟨ds, rfl, hrest⟩ := h.exists_cons (by simpa using hblank)
    have hopens := not_opensComment line block
    have hstop : skipGap .blanks (c :: rest) = c :: rest := by
      rw [skipGap_cons hopens, if_neg hblank]
    have hstop' : skipGap .blanks (c :: ds) = c :: ds := by
      rw [skipGap_cons (not_opensComment_of_lead hrest.lead_eq hopens), if_neg hblank]
    refine ⟨[], [], ?_, ?_, .nil, ?_⟩
    · rw [hstop]
      rfl
    · rw [hstop']
      rfl
    · rw [hstop, hstop']
      exact h
  | case6 rest ih => exact gapsAlike_blank (by decide) h fun _ => ih
  | case7 c rest hc ih =>
    by_cases hblank : isBlank c = true
    · refine gapsAlike_blank hblank h ?_
      rw [Skipping.afterBlank, if_neg hc]
      exact fun _ => ih
    · obtain ⟨ds, rfl, hrest⟩ := h.exists_cons (by simpa using hblank)
      exact (ih hrest).cons (by rw [skipGap_lineComment, if_neg hc])
        (by rw [skipGap_lineComment, if_neg hc])
  | case9 c rest hend ih =>
    by_cases hblank : isBlank c = true
    · exact gapsAlike_blank hblank h fun _ => ih
    · obtain ⟨ds, rfl, hrest⟩ := h.exists_cons (by simpa using hblank)
      have hcloses := not_closesComment hend
      exact (ih hrest).cons (skipGap_blockComment hcloses)
        (skipGap_blockComment (not_closesComment_of_lead hrest.lead_eq hcloses))

end Gaps

end SqlEngine.Lexer

namespace SqlEngine

/-- Two tokens are alike if they are the same up to their places, and what was skipped before the
first one was thinned before the second. -/
structure Token.Alike (t u : Token) : Prop where
  kind : u.kind = t.kind
  gap : Script.Thinned t.gap u.gap
  lexeme : u.lexeme = t.lexeme

end SqlEngine

namespace SqlEngine.Lexer

open Script

/-- Thinning a text thins the gaps between its tokens and changes nothing else in them, as long as
no white space in a token can be squeezed. -/
theorem Cuts.thinned {place : Position} {cs : List Char} {tokens : List Token}
    (h : Cuts place cs tokens) {ds : List Char} (hthin : Thinned cs ds)
    (hsteady : ∀ t ∈ tokens, squeeze t.lexeme = t.lexeme) (place' : Position) :
    ∃ tokens', Cuts place' ds tokens' ∧ List.Forall₂ Token.Alike tokens tokens' := by
  induction h generalizing ds place' with
  | none hgap =>
    obtain ⟨-, -, -, -, -, hrest⟩ := gapsAlike .blanks hthin
    rw [hgap] at hrest
    exact ⟨[], .none (hrest.eq_nil_iff.2 rfl), .nil⟩
  | @token place cs gap tail lexeme after c kind tokens hgap hcs hread hlexeme rest ih =>
    obtain ⟨hfirst, hothers⟩ := List.forall_mem_cons.1 hsteady
    have hkind : readKind? c tail = some (kind, after) := by
      rw [← toOption_readToken (place.advance gap), hread]
      rfl
    obtain ⟨front, rfl, -⟩ := readKind?_alone hkind
    obtain rfl : c :: front = lexeme := List.append_cancel_right hlexeme
    have hblank := isBlank_of_skipGap hgap
    obtain ⟨gap₁, gap', hcut, hcut', hgaps, hrest⟩ := gapsAlike .blanks hthin
    rw [hgap] at hcut hrest
    obtain rfl : gap₁ = gap := List.append_cancel_right (hcut.symm.trans hcs)
    obtain ⟨tail', htail', htail⟩ := hrest.exists_cons hblank
    obtain ⟨after', rfl, hafter, hread'⟩ := readKind?_thinned hkind hblank hfirst htail
    rw [htail'] at hcut'
    obtain ⟨tokens', hcuts, halike⟩ :=
      ih hafter hothers ((place'.advance gap').advance (c :: front))
    have hfirst' : Cuts place' ds (⟨kind, gap', c :: front, place'.advance gap'⟩ :: tokens') :=
      .token htail' hcut' (readToken_of_readKind? hread' _) rfl hcuts
    exact ⟨_, hfirst', .cons ⟨rfl, hgaps, rfl⟩ halike⟩

end SqlEngine.Lexer
