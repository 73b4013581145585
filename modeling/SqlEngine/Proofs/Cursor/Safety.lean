import SqlEngine.Proofs.Computation
import SqlEngine.Proofs.Cursor.Statement

/-!
# No text crashes the parser

For every text that is cut into tokens, and for every kind of statement, parsing by position comes
to an end. It comes to the statement or the failure that reading from the list of tokens comes to,
so that neither an index outside the tokens nor a bad slice nor a negative depth has been met. How
deeply the calls are nested is not counted here.
-/
namespace SqlEngine.Cursor

open Grammar

variable {α : Type} {sql : String} {list : TokenList} {ts rest : List Token} {limit : Nat}

/-- A whole statement leaves nothing, and the statement without its semicolon leaves no more than
that. -/
theorem reads_whole {kind : StatementKind} {s : Statement} (h : Reads (readWhole kind) ts s rest) :
    rest = [] ∧ ∃ left, Reads (readKind kind) ts s left ∧
      (left = [] ∨ ∃ t, left = [t] ∧ t.kind = .mark .semicolon) := by
  obtain ⟨read, left, hread, hmore⟩ := reads_bind.1 h
  obtain ⟨flag, behind, hoptional, hmore⟩ := reads_bind.1 hmore
  obtain ⟨_, _, ⟨r, hahead, rfl⟩, hend⟩ := reads_bind.1 hmore
  cases hahead
  cases behind with
  | cons t after =>
    obtain ⟨_, hrefused, _⟩ := hend
    cases hrefused
  | nil =>
    obtain ⟨rfl, rfl⟩ := reads_pure.1 hend
    refine ⟨rfl, left, hread, ?_⟩
    obtain ⟨-, t, rfl, ht⟩ | ⟨-, rfl, -⟩ := hoptional.optional
    · exact .inr ⟨t, rfl, ht⟩
    · exact .inl rfl

/-- Where the reader reads something, the parser that follows it comes to the same. -/
theorem Follows.gives {m : Parser α} {p : Reader α} (h : Follows sql list limit m p)
    (hts : ts <:+ list.tokens) (hlimit : ts.length ≤ limit) {a : α} (hp : Reads p ts a rest) :
    Gives sql list m ts a rest := by
  obtain ⟨r, hr, rfl⟩ := hp
  have htracks := h ts hts hlimit
  rw [hr] at htracks
  cases htracks with
  | value hgives => exact hgives

/-- Parsing ends among the tokens, with the statement or the failure of the reader, and with no
crash. It ends with a statement only behind all tokens, and of these the statement itself leaves at
most a semicolon. -/
theorem whole_safe (h : Lexer.tokens sql = .ok list) (kind : StatementKind) :
    ∃ position ≤ list.tokens.length,
      (Parser.whole kind).Comes (.ofTokens sql list) 0
        (.ok (Statement.ofTokens kind list, position)) ∧
      (∀ c, ¬ (Parser.whole kind).Comes (.ofTokens sql list) 0 (.error c)) ∧
      ∀ s, Statement.ofTokens kind list = .ok s → position = list.tokens.length ∧
        ∃ stop, (Parser.statement kind).Comes (.ofTokens sql list) 0 (.ok (.ok s, stop)) ∧
          (stop = list.tokens.length ∨ ∃ t, list.tokens[stop]? = some t ∧
            t.kind = .mark .semicolon ∧ stop + 1 = list.tokens.length) := by
  have hts := List.suffix_refl list.tokens
  have hstart : place list list.tokens = 0 := Nat.sub_self _
  have hwhole := follows_whole h kind list.tokens hts (Nat.le_refl _)
  have hstatement : Follows sql list list.tokens.length _ _ := follows_statement h kind
  unfold Statement.ofTokens
  generalize hread : readWhole kind list.tokens = x at hwhole
  cases hwhole with
  | @refused e rest hrest hrefused =>
    rw [hstart] at hrefused
    refine ⟨place list rest, place_le list rest, hrefused, fun c hcrash => ?_, nofun⟩
    cases hrefused.unique hcrash
  | @value s r hvalue =>
    rw [Gives, hstart] at hvalue
    refine ⟨place list r.1, place_le list r.1, hvalue, fun c hcrash => ?_, ?_⟩
    · cases hvalue.unique hcrash
    · rintro _ ⟨⟩
      obtain ⟨hnone, left, hleft, hcases⟩ := reads_whole ⟨r, hread, rfl⟩
      have hgives := hstatement.gives hts (Nat.le_refl _) hleft
      rw [Gives, hstart] at hgives
      rw [hnone]
      refine ⟨rfl, place list left, hgives, ?_⟩
      obtain rfl | ⟨t, rfl, ht⟩ := hcases
      · exact .inl rfl
      · obtain ⟨⟨_, front, hfront⟩, -, rfl⟩ := hleft
        have hplace : place list [t] = front.length := by simp [place, ← hfront]
        rw [hplace]
        exact .inr ⟨t, by simp [← hfront], ht, by simp [← hfront]⟩

/-- A condition that is read as an expression in brackets, after it has been tried as a condition in
brackets. -/
theorem whole_safe_brackets :
    let sql := "DELETE FROM t WHERE (a + 1) > 2 ;"
    ∃ list s, Lexer.tokens sql = .ok list ∧ list.tokens.length = 12 ∧
      (Parser.whole .delete).Comes (.ofTokens sql list) 0 (.ok (.ok s, 12)) := by
  intro sql
  have hread : (Lexer.tokens sql).toOption.map (fun list =>
      ((Statement.ofTokens .delete list).toOption.map Statement.kind, list.tokens.length)) =
      some (some .delete, 12) := by
    decide +kernel
  obtain ⟨list, hlist, hparts⟩ := exists_ok_of_map hread
  obtain ⟨hstatement, hlength⟩ := Prod.mk.inj hparts
  obtain ⟨s, hs, -⟩ := exists_ok_of_map hstatement
  obtain ⟨position, -, hparse, -, hend⟩ := whole_safe hlist .delete
  rw [hs, (hend s hs).1, hlength] at hparse
  exact ⟨list, s, hlist, hlength, hparse⟩

/-- Without a token at its end a text crashes the parser. -/
example : (Parser.whole .showTables).run 9 ⟨"", []⟩ 0 = some (.error .badIndex) := rfl

end SqlEngine.Cursor
