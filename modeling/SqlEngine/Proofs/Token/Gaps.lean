import Mathlib.Data.List.Infix
import SqlEngine.Token.Lexer

/-!
# Gaps between tokens

What is skipped in front of a token is white space and comments. A line comment ends with its line
and a block comment at the first sign that closes it; only at the end of the text may either be left
open. The reader skips as much as it can, so no gap goes on where a token begins.
-/
namespace SqlEngine.Lexer

/-- White space and comments, each closed, or, at the end of a text, perhaps with an open one. -/
inductive Gap (atEnd : Bool) : List Char → Prop
  | nil : Gap atEnd []
  | blank {c : Char} {rest : List Char} (hc : Text.isBlank c = true) (hrest : Gap atEnd rest) :
      Gap atEnd (c :: rest)
  | lineComment {body rest : List Char} (hbody : '\n' ∉ body) (hrest : Gap atEnd rest) :
      Gap atEnd ('-' :: '-' :: body ++ '\n' :: rest)
  | blockComment {body rest : List Char} (hbody : ¬ ['*', '/'] <:+: body)
      (hrest : Gap atEnd rest) : Gap atEnd ('/' :: '*' :: body ++ '*' :: '/' :: rest)
  | openLine {body : List Char} (hend : atEnd = true) (hbody : '\n' ∉ body) :
      Gap atEnd ('-' :: '-' :: body)
  | openBlock {body : List Char} (hend : atEnd = true) (hbody : ¬ ['*', '/'] <:+: body) :
      Gap atEnd ('/' :: '*' :: body)

/-- What is skipped from inside a gap on: the rest of a comment belongs to it. -/
def Skipping.Skips (atEnd : Bool) : Skipping → List Char → Prop
  | .blanks, cs => Gap atEnd cs
  | .lineComment, cs =>
    (∃ body rest, '\n' ∉ body ∧ Gap atEnd rest ∧ cs = body ++ '\n' :: rest) ∨
      atEnd = true ∧ '\n' ∉ cs
  | .blockComment, cs =>
    (∃ body rest, ¬ ['*', '/'] <:+: body ∧ Gap atEnd rest ∧ cs = body ++ '*' :: '/' :: rest) ∨
      atEnd = true ∧ ¬ ['*', '/'] <:+: cs

/-- A character in front does not close a comment, unless it is a star with a slash behind it. -/
theorem not_closes_cons {c : Char} {body : List Char} (hbody : ¬ ['*', '/'] <:+: body)
    (hc : ∀ rest, c = '*' → body = '/' :: rest → False) : ¬ ['*', '/'] <:+: c :: body := by
  rw [List.infix_cons_iff]
  rintro (hfront | hinside)
  · obtain ⟨rest, hrest⟩ := hfront
    obtain ⟨hstar, hslash⟩ := List.cons.inj hrest
    exact hc rest hstar.symm hslash.symm
  · exact hbody hinside

/-- What the reader skips is a gap, and one that may be open only if nothing is left behind it. -/
theorem skips_skipGap (s : Skipping) (cs : List Char) :
    ∃ front, cs = front ++ skipGap s cs ∧ s.Skips (skipGap s cs).isEmpty front := by
  fun_induction skipGap s cs with
  | case1 s =>
    refine ⟨[], rfl, ?_⟩
    cases s with
    | blanks => exact .nil
    | lineComment => exact .inr ⟨rfl, List.not_mem_nil⟩
    | blockComment => exact .inr ⟨rfl, by simp⟩
  | case2 rest ih =>
    obtain ⟨front, hfront, ⟨body, gap, hbody, hgap, rfl⟩ | ⟨hend, hopen⟩⟩ := ih
    · exact ⟨_, congrArg ('-' :: '-' :: ·) hfront, .lineComment hbody hgap⟩
    · exact ⟨_, congrArg ('-' :: '-' :: ·) hfront, .openLine hend hopen⟩
  | case3 rest ih =>
    obtain ⟨front, hfront, ⟨body, gap, hbody, hgap, rfl⟩ | ⟨hend, hopen⟩⟩ := ih
    · exact ⟨_, congrArg ('/' :: '*' :: ·) hfront, .blockComment hbody hgap⟩
    · exact ⟨_, congrArg ('/' :: '*' :: ·) hfront, .openBlock hend hopen⟩
  | case4 c rest line block hblank ih =>
    obtain ⟨front, hfront, hgap⟩ := ih
    exact ⟨c :: front, congrArg (c :: ·) hfront, .blank hblank hgap⟩
  | case5 c rest line block hblank => exact ⟨[], rfl, .nil⟩
  | case6 rest ih =>
    obtain ⟨front, hfront, hgap⟩ := ih
    exact ⟨'\n' :: front, congrArg ('\n' :: ·) hfront,
      .inl ⟨[], front, List.not_mem_nil, hgap, rfl⟩⟩
  | case7 c rest hc ih =>
    have hcons : ∀ {body : List Char}, '\n' ∉ body → '\n' ∉ c :: body := fun hbody hmem =>
      (List.mem_cons.1 hmem).elim (fun heq => hc heq.symm) hbody
    obtain ⟨front, hfront, ⟨body, gap, hbody, hgap, rfl⟩ | ⟨hend, hopen⟩⟩ := ih
    · exact ⟨_, congrArg (c :: ·) hfront, .inl ⟨c :: body, gap, hcons hbody, hgap, rfl⟩⟩
    · exact ⟨_, congrArg (c :: ·) hfront, .inr ⟨hend, hcons hopen⟩⟩
  | case8 rest ih =>
    obtain ⟨front, hfront, hgap⟩ := ih
    exact ⟨'*' :: '/' :: front, congrArg ('*' :: '/' :: ·) hfront,
      .inl ⟨[], front, by simp, hgap, rfl⟩⟩
  | case9 c rest hclose ih =>
    obtain ⟨front, hfront, hskips⟩ := ih
    have hcons : ∀ {body tail : List Char}, front = body ++ tail → ¬ ['*', '/'] <:+: body →
        ¬ ['*', '/'] <:+: c :: body := by
      rintro body tail rfl hbody
      refine not_closes_cons hbody fun more hstar hslash => ?_
      rw [hslash] at hfront
      exact hclose _ hstar hfront
    refine ⟨c :: front, congrArg (c :: ·) hfront, ?_⟩
    rcases hskips with ⟨body, gap, hbody, hgap, heq⟩ | ⟨hend, hopen⟩
    · exact .inl ⟨c :: body, gap, hcons heq hbody, hgap, congrArg (c :: ·) heq⟩
    · exact .inr ⟨hend, hcons (List.append_nil front).symm hopen⟩

/-- The characters in front of a token are a gap. -/
theorem gap_of_skipGap_cons {cs gap tail : List Char} {c : Char}
    (hskip : skipGap .blanks cs = c :: tail) (hcs : cs = gap ++ c :: tail) : Gap false gap := by
  obtain ⟨front, hfront, hgap⟩ := skips_skipGap .blanks cs
  rw [hskip] at hfront hgap
  rw [List.append_cancel_right (hcs.symm.trans hfront)]
  exact hgap

/-- Characters without a token are a gap at the end of a text. -/
theorem gap_of_skipGap_nil {cs : List Char} (hskip : skipGap .blanks cs = []) : Gap true cs := by
  obtain ⟨front, hfront, hgap⟩ := skips_skipGap .blanks cs
  rw [hskip, List.append_nil] at hfront
  rw [hskip] at hgap
  rw [hfront]
  exact hgap

/-- No token begins with white space. -/
theorem isBlank_of_skipGap {s : Skipping} {cs tail : List Char} {c : Char}
    (h : skipGap s cs = c :: tail) : Text.isBlank c = false := by
  fun_induction skipGap s cs with
  | case1 => cases h
  | case2 rest ih | case3 rest ih | case6 rest ih | case8 rest ih => exact ih h
  | case4 c' rest line block hblank ih => exact ih h
  | case5 c' rest line block hblank =>
    cases h
    exact Bool.eq_false_iff.2 hblank
  | case7 c' rest hc ih => exact ih h
  | case9 c' rest hend ih => exact ih h

end SqlEngine.Lexer
