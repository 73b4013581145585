import SqlEngine.Proofs.Computation
import SqlEngine.Proofs.Token.Alone

/-!
# Places of tokens

The tokens of a text and the gaps between them are the whole text. The place of a token is counted
step by step while the text is read; here it is compared with what stands before the token: its
bytes, the ends of lines among it, and the characters behind the last of these. Every token lies at
its place, and it is the only token of the text that consists of its own characters.
-/
namespace SqlEngine

open String (utf8Len)

/-- The place behind some characters, counted from the characters themselves. -/
def Position.behind (front : List Char) : Position :=
  ⟨utf8Len front, 1 + front.count '\n', 1 + (front.reverse.takeWhile (· != '\n')).length⟩

/-- A step goes over one character more. -/
theorem Position.step_behind (front : List Char) (c : Char) :
    (Position.behind front).step c = .behind (front ++ [c]) := by
  have hbytes : utf8Len (front ++ [c]) = utf8Len front + c.utf8Size := by
    rw [String.utf8Len_append, String.utf8Len_cons, String.utf8Len_nil, Nat.zero_add]
  by_cases hc : c = '\n'
  · rw [step, if_pos hc]
    subst hc
    simp [behind, hbytes, Nat.add_assoc]
  · rw [step, if_neg hc]
    simp [behind, hbytes, hc, Nat.add_comm]

theorem Position.advance_start (front : List Char) :
    Position.start.advance front = .behind front := by
  induction front using List.reverseRecOn with
  | nil => rfl
  | append_singleton front c ih =>
    rw [advance_append, ih]
    exact step_behind front c

/-- What a token takes of its text, with the gap in front of it. -/
def Token.stretch (token : Token) : List Char := token.gap ++ token.lexeme

namespace Lexer

/-- The reader gives back the whole text, in tokens and a gap at the end. -/
theorem Cuts.whole {place : Position} {cs : List Char} {tokens : List Token}
    (h : Cuts place cs tokens) :
    ∃ gap, cs = tokens.flatMap Token.stretch ++ gap ∧ Gap true gap ∧
      tokensFrom place cs = .ok ⟨tokens, gap, place.advance cs⟩ := by
  induction h with
  | @none place cs hgap => exact ⟨cs, rfl, gap_of_skipGap_nil hgap, tokensFrom_of_gap place hgap⟩
  | @token place cs gap tail lexeme after c kind tokens hgap hcs hread hlexeme rest ih =>
    obtain ⟨finish, hafter, hfinish, hrest⟩ := ih
    have hfirst : cs = gap ++ lexeme ++ after := by rw [hcs, hlexeme, List.append_assoc]
    refine ⟨finish, ?_, hfinish, ?_⟩
    · calc cs
        _ = gap ++ lexeme ++ (tokens.flatMap Token.stretch ++ finish) := by rw [hfirst, ← hafter]
        _ = _ := by rw [List.flatMap_cons, Token.stretch, List.append_assoc _ _ finish]
    · rw [tokensFrom_of_token hgap hcs, hread]
      dsimp only
      rw [take_lexeme hlexeme, hrest, hfirst, Position.advance_append, Position.advance_append]
      rfl

/-- A token stands behind a closed gap, at the place behind all that comes before it, and would be
read alone. -/
theorem Cuts.token_of_append {place : Position} {cs : List Char} {before after : List Token}
    {token : Token} (h : Cuts place cs (before ++ token :: after)) :
    Gap false token.gap ∧
      token.start = place.advance (before.flatMap Token.stretch ++ token.gap) ∧
      token.lexeme ≠ [] ∧
      Lexer.tokens token.text =
        .ok ⟨[{ token with gap := [], start := .start }], [], .behind token.lexeme⟩ := by
  induction before generalizing place cs with
  | nil =>
    cases h with
    | @token _ _ gap tail lexeme rest c kind _ hgap hcs hread hlexeme =>
      have halone := tokens_alone (hcs ▸ hgap) hread hlexeme
      rw [Position.advance_start] at halone
      refine ⟨gap_of_skipGap_cons hgap hcs, rfl, ?_, halone⟩
      rintro rfl
      have hshort := (readToken_suffix hread).length_le
      rw [← List.nil_append rest, ← hlexeme, List.length_cons] at hshort
      omega
  | cons first before ih =>
    cases h with
    | @token _ _ gap tail lexeme rest c kind _ hgap hcs hread hlexeme hrest =>
      obtain ⟨htoken, hstart, hne, halone⟩ := ih hrest
      refine ⟨htoken, ?_, hne, halone⟩
      rw [hstart, ← Position.advance_append, ← Position.advance_append]
      simp only [List.flatMap_cons, Token.stretch, List.append_assoc]

theorem Cuts.offset_le {place : Position} {cs : List Char} {tokens : List Token}
    (h : Cuts place cs tokens) : ∀ token ∈ tokens, place.offset ≤ token.start.offset := by
  induction h with
  | none => exact fun token hmem => absurd hmem List.not_mem_nil
  | @token place cs gap tail lexeme after c kind tokens hgap hcs hread hlexeme rest ih =>
    intro token hmem
    rw [offset_advance, offset_advance] at ih
    rcases List.mem_cons.1 hmem with rfl | hmem
    · dsimp only
      rw [offset_advance]
      omega
    · have hle := ih token hmem
      omega

/-- A token ends before the next one begins. -/
theorem Cuts.ordered {place : Position} {cs : List Char} {tokens : List Token}
    (h : Cuts place cs tokens) :
    tokens.Pairwise fun first second => first.stop ≤ second.start.offset := by
  induction h with
  | none => exact .nil
  | token hgap hcs hread hlexeme rest ih => exact .cons rest.offset_le ih

/-- The bytes from one place in a text to another are the characters between them. -/
theorem extract_behind {sql : String} {front piece after : List Char}
    (h : sql.toList = front ++ piece ++ after) :
    (⟨utf8Len front⟩ : String.Pos.Raw).IsValid sql ∧
      (⟨utf8Len (front ++ piece)⟩ : String.Pos.Raw).IsValid sql ∧
      utf8Len (front ++ piece) ≤ sql.utf8ByteSize ∧
      String.Pos.Raw.extract sql ⟨utf8Len front⟩ ⟨utf8Len (front ++ piece)⟩ =
        String.ofList piece := by
  have hsql : sql = String.ofList (front ++ piece ++ after) := by
    rw [← h, String.ofList_toList]
  have hvalid : ∀ fore rest : List Char, front ++ piece ++ after = fore ++ rest →
      (⟨utf8Len fore⟩ : String.Pos.Raw).IsValid sql := by
    intro fore rest heq
    rw [String.Pos.Raw.isValid_iff_exists_append]
    refine ⟨String.ofList fore, String.ofList rest, ?_, ?_⟩
    · rw [hsql, heq, String.ofList_append]
    · rw [String.rawEndPos, String.utf8ByteSize_ofList]
  refine ⟨hvalid front (piece ++ after) (List.append_assoc ..), hvalid _ after rfl, ?_, ?_⟩
  · rw [← String.utf8Len_toList, h]
    exact String.utf8Len_le_of_prefix (List.prefix_append _ _)
  · rw [hsql, String.utf8Len_append]
    exact String.extract_of_valid front piece after

/-- How the tokens of a text lie in it. -/
structure AccountsFor (sql : String) (list : TokenList) : Prop where
  /-- The text is what the tokens take of it, one after another, and what is left at its end. -/
  whole : sql.toList = list.tokens.flatMap Token.stretch ++ list.gap
  /-- White space and closed comments are all that stands in front of a token. -/
  gaps : ∀ token ∈ list.tokens, Gap false token.gap
  /-- Only at the end a comment may be left open. -/
  tail : Gap true list.gap
  /-- The end of the text is behind all of its characters and bytes. -/
  finish : list.finish = .behind sql.toList ∧ list.finish.offset = sql.utf8ByteSize
  /-- The place of a token is the place behind all that stands before it. -/
  places : ∀ before token after, list.tokens = before ++ token :: after →
    token.start = .behind (before.flatMap Token.stretch ++ token.gap)
  /-- The bytes of a token lie in the text, from one character to another, and spell it. -/
  bytes : ∀ token ∈ list.tokens,
    (⟨token.start.offset⟩ : String.Pos.Raw).IsValid sql ∧
      (⟨token.stop⟩ : String.Pos.Raw).IsValid sql ∧
      token.start.offset < token.stop ∧ token.stop ≤ sql.utf8ByteSize ∧
      String.Pos.Raw.extract sql ⟨token.start.offset⟩ ⟨token.stop⟩ = token.text
  /-- No token begins before the one in front of it ends. -/
  ordered : list.tokens.Pairwise fun first second => first.stop ≤ second.start.offset
  /-- The characters of a token alone are cut into this token and nothing else. -/
  alone : ∀ token ∈ list.tokens, tokens token.text =
    .ok ⟨[{ token with gap := [], start := .start }], [], .behind token.lexeme⟩

/-- The tokens of a text account for all of it. -/
theorem accountsFor_of_tokens (sql : String) (list : TokenList) (h : tokens sql = .ok list) :
    AccountsFor sql list := by
  have hcuts : Cuts .start sql.toList list.tokens := cuts_of_tokensFrom h
  obtain ⟨gap, hwhole, htail, hlist⟩ := hcuts.whole
  have heq := Except.ok.inj (h.symm.trans hlist)
  obtain rfl : list.gap = gap := congrArg TokenList.gap heq
  have hfinish : list.finish = .behind sql.toList :=
    (congrArg TokenList.finish heq).trans (Position.advance_start _)
  have hplaces : ∀ before token after, list.tokens = before ++ token :: after →
      token.start = .behind (before.flatMap Token.stretch ++ token.gap) := by
    intro before token after hsplit
    rw [← Position.advance_start]
    exact (hsplit ▸ hcuts).token_of_append.2.1
  refine ⟨hwhole, ?_, htail, ⟨hfinish, ?_⟩, hplaces, ?_, hcuts.ordered, ?_⟩
  · intro token hmem
    obtain ⟨before, after, hsplit⟩ := List.append_of_mem hmem
    exact (hsplit ▸ hcuts).token_of_append.1
  · rw [hfinish]
    exact String.utf8Len_toList sql
  · intro token hmem
    obtain ⟨before, after, hsplit⟩ := List.append_of_mem hmem
    have hne := (hsplit ▸ hcuts).token_of_append.2.2.1
    have hstart := hplaces before token after hsplit
    have hstop : token.stop =
        utf8Len (before.flatMap Token.stretch ++ token.gap ++ token.lexeme) := by
      rw [Token.stop, offset_advance, hstart, String.utf8Len_append]
      rfl
    have hcut : sql.toList = before.flatMap Token.stretch ++ token.gap ++ token.lexeme ++
        (after.flatMap Token.stretch ++ list.gap) := by
      rw [hwhole, hsplit]
      simp [Token.stretch]
    obtain ⟨hvalid, hvalid', hle, hextract⟩ := extract_behind hcut
    have hpos : 0 < utf8Len token.lexeme :=
      Nat.pos_of_ne_zero fun hzero => hne (String.utf8Len_eq_zero.1 hzero)
    rw [hstop, hstart]
    refine ⟨hvalid, hvalid', ?_, hle, hextract⟩
    rw [String.utf8Len_append]
    exact Nat.lt_add_of_pos_right hpos
  · intro token hmem
    obtain ⟨before, after, hsplit⟩ := List.append_of_mem hmem
    exact (hsplit ▸ hcuts).token_of_append.2.2.2

/-- A letter of two bytes, a string with a doubled quote, and a comment that is left open. -/
theorem accountsFor_two_lines :
    let sql := "é -- one\n <= 'it''s' /* two"
    ∃ list, tokens sql = .ok list ∧ AccountsFor sql list ∧
      list.tokens.map (fun token => (token.text, token.start, token.stop)) =
        [("é", ⟨0, 1, 1⟩, 2), ("<=", ⟨11, 2, 2⟩, 13), ("'it''s'", ⟨14, 2, 5⟩, 21)] ∧
      list.finish = ⟨28, 2, 19⟩ := by
  intro sql
  have hread : (tokens sql).toOption.map (fun list =>
      (list.tokens.map (fun token => (token.text, token.start, token.stop)), list.finish)) =
      some ([("é", ⟨0, 1, 1⟩, 2), ("<=", ⟨11, 2, 2⟩, 13), ("'it''s'", ⟨14, 2, 5⟩, 21)],
        ⟨28, 2, 19⟩) := by
    decide +kernel
  obtain ⟨list, hlist, hplaces⟩ := exists_ok_of_map hread
  obtain ⟨htokens, hfinish⟩ := Prod.mk.inj hplaces
  exact ⟨list, hlist, accountsFor_of_tokens sql list hlist, htokens, hfinish⟩

end Lexer
end SqlEngine
