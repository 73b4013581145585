import Mathlib.Data.String.Basic
import SqlEngine.Token.Lexer

/-!
# A text cut into tokens

What the reader of tokens does as a relation: a gap is skipped, a token is read behind it, and the
text behind the token is cut in the same way. The reader succeeds exactly where the relation holds,
so that facts about its tokens are shown by induction on the relation. The place of a token counts
the bytes of all that stands before it.
-/
namespace SqlEngine.Lexer

open String (utf8Len)

/-- The characters, which begin at the given place, are cut into the tokens. -/
inductive Cuts : Position → List Char → List Token → Prop
  | none {place : Position} {cs : List Char} (hgap : skipGap .blanks cs = []) : Cuts place cs []
  | token {place : Position} {cs gap tail lexeme after : List Char} {c : Char} {kind : TokenKind}
      {tokens : List Token} (hgap : skipGap .blanks cs = c :: tail) (hcs : cs = gap ++ c :: tail)
      (hread : readToken (place.advance gap) c tail = .ok (kind, after))
      (hlexeme : c :: tail = lexeme ++ after)
      (rest : Cuts ((place.advance gap).advance lexeme) after tokens) :
      Cuts place cs (⟨kind, gap, lexeme, place.advance gap⟩ :: tokens)

theorem tokensFrom_of_gap (place : Position) {cs : List Char} (h : skipGap .blanks cs = []) :
    tokensFrom place cs = .ok ⟨[], cs, place.advance cs⟩ := by
  have hfront : cs.take (cs.length - (skipGap .blanks cs).length) = cs := by
    rw [h]
    exact List.take_length
  rw [tokensFrom]
  dsimp only
  split
  · rw [hfront]
  · next heq =>
    rw [h] at heq
    cases heq

/-- One token of a text and the reader's own account of the rest. -/
theorem tokensFrom_of_token {place : Position} {cs gap tail : List Char} {c : Char}
    (hgap : skipGap .blanks cs = c :: tail) (hcs : cs = gap ++ c :: tail) :
    tokensFrom place cs =
      match readToken (place.advance gap) c tail with
      | .error fault => .error fault
      | .ok (kind, after) =>
        let lexeme := (c :: tail).take ((c :: tail).length - after.length)
        (tokensFrom ((place.advance gap).advance lexeme) after).map fun list =>
          { list with tokens := ⟨kind, gap, lexeme, place.advance gap⟩ :: list.tokens } := by
  have hfront : cs.take (cs.length - (skipGap .blanks cs).length) = gap := by
    rw [hgap, hcs]
    simp
  rw [tokensFrom]
  dsimp only
  split
  · next heq =>
    rw [hgap] at heq
    cases heq
  · next c' tail' heq =>
    rw [hgap] at heq
    cases heq
    rw [hfront]
    split
    · next hread =>
      rw [hread]
    · next hread =>
      rw [hread, hgap]

theorem take_lexeme {cs lexeme after : List Char} (h : cs = lexeme ++ after) :
    cs.take (cs.length - after.length) = lexeme := by
  rw [h]
  simp

theorem cuts_of_tokensFrom {place : Position} {cs : List Char} {list : TokenList}
    (h : tokensFrom place cs = .ok list) : Cuts place cs list.tokens := by
  induction hn : cs.length using Nat.strongRecOn generalizing place cs list with
  | ind n ih =>
    cases hgap : skipGap .blanks cs with
    | nil =>
      rw [tokensFrom_of_gap place hgap] at h
      cases h
      exact .none hgap
    | cons c tail =>
      obtain ⟨gap, hcs⟩ : c :: tail <:+ cs := hgap ▸ skipGap_suffix .blanks cs
      rw [tokensFrom_of_token hgap hcs.symm] at h
      cases hread : readToken (place.advance gap) c tail with
      | error fault =>
        rw [hread] at h
        cases h
      | ok read =>
        obtain ⟨kind, after⟩ := read
        obtain ⟨front, hfront⟩ := readToken_suffix hread
        have hlexeme : c :: tail = (c :: front) ++ after := by
          rw [← hfront]
          rfl
        rw [hread] at h
        dsimp only at h
        rw [take_lexeme hlexeme] at h
        cases hrest : tokensFrom ((place.advance gap).advance (c :: front)) after with
        | error fault =>
          rw [hrest] at h
          cases h
        | ok more =>
          rw [hrest] at h
          cases h
          have hshort : after.length < n := by
            rw [← hn, ← hcs, hlexeme]
            simp only [List.length_append, List.length_cons]
            omega
          exact .token hgap hcs.symm hread hlexeme (ih _ hshort hrest rfl)

/-- The reader of tokens succeeds exactly on the texts that are cut into tokens. -/
theorem cuts_iff {place : Position} {cs : List Char} {tokens : List Token} :
    Cuts place cs tokens ↔ ∃ list, tokensFrom place cs = .ok list ∧ list.tokens = tokens := by
  constructor
  · intro h
    induction h with
    | none hgap => exact ⟨_, tokensFrom_of_gap _ hgap, rfl⟩
    | token hgap hcs hread hlexeme rest ih =>
      obtain ⟨list, hlist, rfl⟩ := ih
      rw [tokensFrom_of_token hgap hcs, hread]
      dsimp only
      rw [take_lexeme hlexeme, hlist]
      exact ⟨_, rfl, rfl⟩
  · rintro ⟨list, hlist, rfl⟩
    exact cuts_of_tokensFrom hlist

/-- A place counts the bytes that stand before it. -/
theorem offset_advance (place : Position) (cs : List Char) :
    (place.advance cs).offset = place.offset + utf8Len cs := by
  induction cs generalizing place with
  | nil => rfl
  | cons c rest ih =>
    have hstep : (place.step c).offset = place.offset + c.utf8Size := by
      rw [Position.step]
      split <;> rfl
    calc (place.advance (c :: rest)).offset
      _ = ((place.step c).advance rest).offset := rfl
      _ = place.offset + utf8Len (c :: rest) := by
        rw [ih, hstep, String.utf8Len_cons]
        omega

end SqlEngine.Lexer
