import SqlEngine.Proofs.Token.Kinds
import SqlEngine.Proofs.Token.Places

/-!
# Slices of a text

The bytes from where one token of a text begins to where another one ends are the text of the tokens
from the one to the other, with all that stands between them.
-/
namespace SqlEngine.Lexer

open String (utf8Len)

variable {sql : String} {list : TokenList}

/-- The bytes from `start` to `stop` are whole characters of the text, and these are `piece`. -/
structure Slices (sql : String) (start stop : Nat) (piece : String) : Prop where
  valid_start : (⟨start⟩ : String.Pos.Raw).IsValid sql
  valid_stop : (⟨stop⟩ : String.Pos.Raw).IsValid sql
  le : start ≤ stop
  extract : String.Pos.Raw.extract sql ⟨start⟩ ⟨stop⟩ = piece

theorem slices_behind {front piece after : List Char} (h : sql.toList = front ++ piece ++ after) :
    Slices sql (utf8Len front) (utf8Len (front ++ piece)) (String.ofList piece) := by
  obtain ⟨hstart, hstop, -, hextract⟩ := extract_behind h
  refine ⟨hstart, hstop, ?_, hextract⟩
  rw [String.utf8Len_append]
  exact Nat.le_add_right ..

theorem slices_nothing {front after : List Char} (h : sql.toList = front ++ after) :
    Slices sql (utf8Len front) (utf8Len front) "" := by
  have hpieces : sql.toList = front ++ [] ++ after := by rw [List.append_nil, h]
  have hslices := slices_behind hpieces
  rwa [List.append_nil] at hslices

theorem textOf_cons (first : Token) (more : List Token) :
    Token.textOf (first :: more) = String.ofList (first.lexeme ++ more.flatMap Token.stretch) := rfl

theorem stretch_append_lexeme (before : List Token) (token : Token) :
    before.flatMap Token.stretch ++ token.gap ++ token.lexeme =
      (before ++ [token]).flatMap Token.stretch := by
  simp [Token.stretch]

theorem quote_of_readKind? {c quote : Char} {rest after : List Char} {content : String}
    (h : readKind? c rest = some (.string quote content, after)) : quote = c := by
  obtain ⟨_, -, -, hkind⟩ | ⟨_, -, -, hkind⟩ | ⟨_, -, -, hkind, -⟩ | ⟨-, hkind, -⟩ |
    ⟨_, -, -, hkind⟩ := readKind?_cases h
  · exact (TokenKind.string.inj hkind).1
  · cases hkind
  · cases hkind
  · rw [wordKind] at hkind
    split at hkind <;> cases hkind
  · cases hkind

/-- A string begins with the quote it stands in. -/
theorem Cuts.head?_of_string {place : Position} {cs : List Char} {tokens : List Token}
    (h : Cuts place cs tokens) {token : Token} (hmem : token ∈ tokens) {quote : Char}
    {content : String} (hkind : token.kind = .string quote content) :
    token.lexeme.head? = some quote := by
  induction h with
  | none => cases hmem
  | @token place cs gap tail lexeme after c kind tokens hgap hcs hread hlexeme rest ih =>
    rcases List.mem_cons.1 hmem with rfl | hmem
    · have hkind : kind = .string quote content := hkind
      have hfirst := toOption_readToken (place.advance gap) c tail
      rw [hread, hkind] at hfirst
      rw [quote_of_readKind? hfirst.symm]
      cases lexeme with
      | nil =>
        have hshort := (readToken_suffix hread).length_le
        rw [← List.nil_append after, ← hlexeme, List.length_cons] at hshort
        omega
      | cons d lexeme => rw [(List.cons.inj hlexeme).1, List.head?_cons]
    · exact ih hmem

section Tokens

variable (h : tokens sql = .ok list)
include h

theorem start_of_append {before after : List Token} {token : Token}
    (hsplit : list.tokens = before ++ token :: after) :
    token.start.offset = utf8Len (before.flatMap Token.stretch ++ token.gap) := by
  have hcuts : Cuts .start sql.toList list.tokens := cuts_of_tokensFrom h
  rw [hsplit] at hcuts
  rw [hcuts.token_of_append.2.1, offset_advance]
  exact Nat.zero_add _

theorem stop_of_append {before after : List Token} {token : Token}
    (hsplit : list.tokens = before ++ token :: after) :
    token.stop = utf8Len ((before ++ [token]).flatMap Token.stretch) := by
  rw [Token.stop, offset_advance, start_of_append h hsplit, ← String.utf8Len_append,
    stretch_append_lexeme]

/-- The bytes from one token to another spell the tokens between them. -/
theorem slices_textOf {before taken after : List Token} {first last : Token}
    (hsplit : list.tokens = before ++ taken ++ after) (hfirst : taken.head? = some first)
    (hlast : taken.getLast? = some last) :
    Slices sql first.start.offset last.stop (Token.textOf taken) := by
  obtain ⟨more, rfl⟩ := List.head?_eq_some_iff.1 hfirst
  obtain ⟨front, hfront⟩ := List.getLast?_eq_some_iff.1 hlast
  obtain ⟨gap, hwhole, -⟩ := (cuts_of_tokensFrom h).whole
  have hstart := start_of_append h (hsplit.trans (List.append_assoc before _ after))
  have hstop : last.stop = utf8Len ((before ++ first :: more).flatMap Token.stretch) := by
    have hlast : list.tokens = (before ++ front) ++ last :: after := by
      rw [hsplit, hfront]
      simp
    rw [stop_of_append h hlast, hfront, List.append_assoc]
  have hpieces : sql.toList = (before.flatMap Token.stretch ++ first.gap) ++
      (first.lexeme ++ more.flatMap Token.stretch) ++ (after.flatMap Token.stretch ++ gap) := by
    rw [hwhole, hsplit]
    simp [Token.stretch]
  have hall : (before ++ first :: more).flatMap Token.stretch =
      (before.flatMap Token.stretch ++ first.gap) ++
        (first.lexeme ++ more.flatMap Token.stretch) := by
    simp [Token.stretch]
  rw [hstart, hstop, hall, textOf_cons]
  exact slices_behind hpieces

theorem slices_text {token : Token} (hmem : token ∈ list.tokens) :
    Slices sql token.start.offset token.stop token.text := by
  obtain ⟨before, after, hsplit⟩ := List.append_of_mem hmem
  have hone : list.tokens = before ++ [token] ++ after := by
    rw [hsplit]
    simp
  have hslices := slices_textOf h hone rfl rfl
  rwa [textOf_cons, List.flatMap_nil, List.append_nil] at hslices

/-- The bytes from a token on begin with the first character of the token. -/
theorem slices_from {token : Token} (hmem : token ∈ list.tokens) :
    ∃ rest, Slices sql token.start.offset sql.utf8ByteSize
      (String.ofList (token.lexeme ++ rest)) := by
  obtain ⟨before, after, hsplit⟩ := List.append_of_mem hmem
  obtain ⟨gap, hwhole, -⟩ := (cuts_of_tokensFrom h).whole
  refine ⟨after.flatMap Token.stretch ++ gap, ?_⟩
  have hpieces : sql.toList = (before.flatMap Token.stretch ++ token.gap) ++
      (token.lexeme ++ (after.flatMap Token.stretch ++ gap)) ++ [] := by
    rw [hwhole, hsplit]
    simp [Token.stretch]
  have hslices := slices_behind hpieces
  rw [List.append_nil] at hpieces
  rwa [start_of_append h hsplit, ← String.utf8Len_toList sql, hpieces]

/-- Nothing is sliced where a token begins. -/
theorem slices_start {token : Token} (hmem : token ∈ list.tokens) :
    Slices sql token.start.offset token.start.offset "" := by
  obtain ⟨before, after, hsplit⟩ := List.append_of_mem hmem
  obtain ⟨gap, hwhole, -⟩ := (cuts_of_tokensFrom h).whole
  rw [start_of_append h hsplit]
  have hpieces : sql.toList = (before.flatMap Token.stretch ++ token.gap) ++
      (token.lexeme ++ (after.flatMap Token.stretch ++ gap)) := by
    rw [hwhole, hsplit]
    simp [Token.stretch]
  exact slices_nothing hpieces

/-- Nothing is sliced at the end of a text. -/
theorem slices_finish : Slices sql list.finish.offset list.finish.offset "" := by
  obtain ⟨gap, -, -, hlist⟩ := (cuts_of_tokensFrom h).whole
  have hfinish : list.finish = Position.start.advance sql.toList :=
    congrArg TokenList.finish (Except.ok.inj (h.symm.trans hlist))
  have hoffset : list.finish.offset = utf8Len sql.toList := by
    rw [hfinish, offset_advance]
    exact Nat.zero_add _
  rw [hoffset]
  exact slices_nothing (List.append_nil _).symm

end Tokens

end SqlEngine.Lexer
