import SqlEngine.Grammar.Statement
import SqlEngine.Proofs.Cursor.Definition
import SqlEngine.Proofs.Cursor.Query

/-!
# Statements by position

From the first token of a text on, the parser of each kind of statement comes to what the reader of
that kind reads, or to the failure of the reader, and neither crashes nor runs for ever.
-/
namespace SqlEngine.Cursor

open Grammar SqlEngine.Cursor.Parser

variable {sql : String} {list : TokenList} {limit : Nat}

section Statements

theorem gives_skipStatement {ts : List Token} (hts : ts <:+ list.tokens) :
    Gives sql list Parser.skipStatement ts ()
      (ts.dropWhile fun t => t.kind ≠ .mark .semicolon) := by
  induction ts with
  | nil =>
    exact Gives.call ((gives_current hts).bind (gives_pure () []))
  | cons t after ih =>
    rw [List.dropWhile_cons]
    refine Gives.call ((gives_current hts).bind ?_)
    by_cases ht : t.kind = .mark .semicolon
    · simp only [ahead, Placed.ofToken, ht]
      exact gives_pure () _
    · rw [if_pos (by simpa using ht)]
      split
      · next hkind => cases hkind
      · next hkind => exact absurd (Option.some_inj.1 hkind) ht
      · exact (gives_advance hts).bind (ih (suffix_tail hts))

theorem startsWith_iff {kind : TokenKind} {ts : List Token} :
    startsWith kind ts = true ↔ (ahead list ts).kind = some kind := by
  cases ts <;> simp [startsWith, ahead, Placed.ofToken, Placed.atEnd]

variable (h : Lexer.tokens sql = .ok list)
include h

theorem follows_valueGroup : Follows sql list limit valueGroup readGroup := by
  refine (follows_mark h _).bind fun _ ts hts hlimit => ?_
  have hclose : ∀ group : List Expr, Follows sql list limit
      (do mark .rightParen; return group) (do Reader.mark .rightParen; return group) :=
    fun _ => (follows_mark h _).bind fun _ => follows_pure _
  refine tracks_ahead ((gives_current hts).tracks ?_)
  by_cases hempty : (ahead list ts).kind = some (.mark .rightParen)
  · rw [if_pos hempty, if_pos (startsWith_iff.2 hempty)]
    exact ((follows_pure []).bind hclose) ts hts hlimit
  · rw [if_neg hempty, if_neg (mt startsWith_iff.1 hempty)]
    exact ((exprFollows h limit).exprs.bind hclose) ts hts hlimit

/-- The lists of values, behind the table and its columns. -/
theorem follows_insertValues (table : String) (columns : Option (List String)) :
    Follows sql list limit
      (do keyword .VALUES
          return Insert.mk table columns (← separated (.mark .comma) valueGroup))
      (do Reader.keyword .VALUES
          return Insert.mk table columns (← Reader.separated (.mark .comma) readGroup)) :=
  (follows_keyword h _).bind fun _ => (follows_separated _ fun _ => follows_valueGroup h).bind
    fun _ => follows_pure _

theorem follows_insert : Follows sql list limit insert readInsert :=
  (follows_keyword h _).bind fun _ => (follows_keyword h _).bind fun _ =>
    (follows_name h).bind fun table => (follows_matchToken _).bind fun listed => by
      cases listed with
      | true =>
        exact (follows_separated _ fun _ => follows_name h).bind fun names =>
          (follows_mark h _).bind fun _ => (follows_pure (some names)).bind fun columns =>
          follows_insertValues h table columns
      | false => exact (follows_pure none).bind fun columns => follows_insertValues h table columns

theorem follows_assignment : Follows sql list limit assignment readAssignment :=
  (follows_name h).bind fun _ => (follows_mark h _).bind fun _ => (follows_expr h).bind fun _ =>
    follows_pure _

theorem follows_filter :
    Follows sql list limit (Parser.optionalClause .WHERE predicate)
      (Grammar.optionalClause .WHERE readCondition) :=
  follows_optionalClause _ fun limit => (conditionFollows h limit).condition

theorem follows_update : Follows sql list limit update readUpdate :=
  (follows_keyword h _).bind fun _ => (follows_name h).bind fun _ =>
    (follows_keyword h _).bind fun _ =>
    (follows_separated _ fun _ => follows_assignment h).bind fun _ =>
    (follows_filter h).bind fun _ => follows_pure _

theorem follows_delete : Follows sql list limit delete readDelete :=
  (follows_keyword h _).bind fun _ => (follows_keyword h _).bind fun _ =>
    (follows_name h).bind fun _ => (follows_filter h).bind fun _ => follows_pure _

theorem follows_ifNotExists : Follows sql list limit ifNotExists readIfNotExists :=
  (follows_matchToken _).bind fun isThere => by
    cases isThere with
    | true =>
      exact (follows_keyword h _).bind fun _ => (follows_keyword h _).bind fun _ => follows_pure _
    | false => exact follows_pure _

theorem follows_createTable : Follows sql list limit createTable readCreateTable :=
  (follows_keyword h _).bind fun _ => (follows_keyword h _).bind fun _ =>
    (follows_ifNotExists h).bind fun _ => (follows_name h).bind fun _ =>
    (follows_mark h _).bind fun _ => (follows_definitions h _ _).bind fun body =>
    (follows_mark h _).bind fun _ => (follows_markKeys body.columns body.key).bind fun columns => by
      cases columns with
      | nil => exact fun ts hts _ => tracks_fail hts _
      | cons column columns => exact follows_pure _

theorem follows_optionalName : Follows sql list limit optionalName Reader.optionalName := by
  intro ts hts hlimit
  refine tracks_ahead ((gives_current hts).tracks ((gives_startsName h hts).tracks ?_))
  cases Reader.startsName ts with
  | true => exact ((follows_name h).bind fun _ => follows_pure _) ts hts hlimit
  | false => exact tracks_value none rfl

theorem follows_createIndex : Follows sql list limit createIndex readCreateIndex :=
  (follows_keyword h _).bind fun _ => (follows_matchToken _).bind fun _ =>
    (follows_keyword h _).bind fun _ => (follows_ifNotExists h).bind fun _ =>
    (follows_optionalName h).bind fun _ =>
    (follows_optionalClause _ fun _ => follows_name h).bind fun _ =>
    Follows.bind (fun _ hts _ => .value (gives_skipStatement hts)) fun _ => follows_pure _

theorem follows_dropTable : Follows sql list limit dropTable readDropTable :=
  (follows_keyword h _).bind fun _ => (follows_keyword h _).bind fun _ =>
    (follows_matchToken _).bind fun isThere => by
      cases isThere with
      | true =>
        exact (follows_keyword h _).bind fun _ => (follows_pure true).bind fun _ =>
          (follows_name h).bind fun _ => follows_pure _
      | false =>
        exact (follows_pure false).bind fun _ => (follows_name h).bind fun _ => follows_pure _

omit h in
theorem gives_atStatementEnd {ts : List Token} (hts : ts <:+ list.tokens) :
    Gives sql list atStatementEnd ts (Grammar.atEnd ts) ts := by
  refine (gives_current hts).bind ?_
  cases ts <;> exact gives_pure _ _

theorem follows_alterTable : Follows sql list limit alterTable readAlterTable := by
  refine (follows_keyword h _).bind fun _ => (follows_keyword h _).bind fun _ =>
    (follows_name h).bind fun table => ?_
  intro ts hts hlimit
  refine tracks_ahead ((gives_atStatementEnd hts).tracks ?_)
  split
  · exact tracks_fail hts _
  · refine ((follows_matchToken (.keyword .ADD)).bind fun add => ?_) ts hts hlimit
    cases add with
    | true =>
      refine (follows_matchToken _).bind fun _ => (follows_definition h).bind fun definition => ?_
      cases definition with
      | column column => exact follows_pure _
      | primaryKey names => exact fun _ hus _ => tracks_refuse hus .onlyAddColumn
      | otherConstraint => exact fun _ hus _ => tracks_refuse hus .onlyAddColumn
    | false => exact fun _ hus _ => tracks_refuse hus .onlyAddColumn

theorem follows_showTables : Follows sql list limit showTables readShowTables :=
  (follows_keyword h _).bind fun _ => follows_keyword h _

theorem follows_describe : Follows sql list limit describe readDescribe :=
  Follows.bind (fun _ hts _ => .value (gives_advance hts)) fun _ => follows_name h

theorem follows_statement (kind : StatementKind) :
    Follows sql list limit (statement kind) (readKind kind) := by
  cases kind with
  | select => exact (follows_select h).bind fun _ => follows_pure _
  | insert => exact (follows_insert h).bind fun _ => follows_pure _
  | update => exact (follows_update h).bind fun _ => follows_pure _
  | delete => exact (follows_delete h).bind fun _ => follows_pure _
  | createTable => exact (follows_createTable h).bind fun _ => follows_pure _
  | createIndex => exact (follows_createIndex h).bind fun _ => follows_pure _
  | dropTable => exact (follows_dropTable h).bind fun _ => follows_pure _
  | alterTable => exact (follows_alterTable h).bind fun _ => follows_pure _
  | showTables => exact (follows_showTables h).bind fun _ => follows_pure _
  | describe => exact (follows_describe h).bind fun _ => follows_pure _

theorem follows_whole (kind : StatementKind) :
    Follows sql list limit (whole kind) (readWhole kind) := by
  refine (follows_statement h kind).bind fun statement => (follows_matchToken _).bind fun _ => ?_
  intro ts hts hlimit
  refine tracks_ahead ((gives_current hts).tracks ?_)
  cases ts with
  | nil => exact tracks_value statement rfl
  | cons t after => exact (gives_currentText h hts).tracks (tracks_fail hts _)

end Statements
end SqlEngine.Cursor
