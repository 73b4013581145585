import SqlEngine.Proofs.Catalog.Insertion
import SqlEngine.Proofs.Engine.Run
import SqlEngine.Proofs.Grammar.InsertReads
import SqlEngine.Proofs.Script.Single
import SqlEngine.Proofs.Token.Assembly

/-!
# Text literals in an INSERT

A text that is written as a literal of an INSERT arrives in the table as it was, whatever it looks
like: signs of comments, semicolons and quotes in it have no meaning on the way. The script is
followed through each stage, from its one statement over its tokens to the row that is added.
-/
namespace SqlEngine

open Lexer Script

/-- A script of one statement, which succeeds, leaves one record. -/
theorem Engine.execute_single (engine : Engine) {script : String} {outcome : Outcome}
    {after : Catalog} (hstatements : statements script = [script])
    (hstrip : stripComments script = script) (hnonempty : script ≠ "")
    (houtcome : engine.outcomeOf script = .ok (outcome, after)) :
    engine.execute script = ([.ofOutcome outcome], { engine with catalog := after }) := by
  have hempty : (stripComments script).isEmpty = false := by
    rw [hstrip, ← Bool.not_eq_true, String.isEmpty_iff]
    exact hnonempty
  rw [← hstrip] at houtcome
  rw [engine.execute_of_statements hstatements, runStatement_of_ok hempty houtcome]
  rfl

/-- A text of a known kind is a statement if the tokens that it is cut into are read as one. -/
theorem Statement.ofText_of_lexes {sql : String} {written : List (TokenKind × List Char)}
    {kind : StatementKind} {statement : Statement} (hkind : StatementKind.ofText? sql = some kind)
    (hlexes : Lexes sql.toList written)
    (hread : ∀ tokens, writing tokens = written →
      Grammar.Reads (Grammar.readKind kind) tokens statement []) (limit : Nat) :
    Statement.ofText limit sql = .ok statement := by
  obtain ⟨list, hlist, hwritten⟩ := hlexes.tokens_eq_ok
  rw [String.ofList_toList] at hlist
  rw [Statement.ofText, hkind]
  dsimp only
  refine bind_eq_ok.2 ⟨list, ?_, Statement.ofTokens_eq_ok (hread list.tokens hwritten)⟩
  rw [TokenList.ofText, hlist]

/-- The INSERT of one text into one column, the text written as a literal. -/
def insertText (table column text : String) : String :=
  "INSERT INTO " ++ table ++ " (" ++ column ++ ") VALUES ('" ++
    String.ofList (doubleQuotes text.toList) ++ "')"

/-- The text can stand as a name without quotes and is in small letters. -/
structure PlainName (name : String) : Prop where
  word : IsWord name.toList
  small : Text.lower name = name
  unreserved : ∀ keyword ∈ Keyword.ofWord? name, keyword.isNonReserved = true

namespace PlainName

variable {name : String}

/-- A token that is written as the name gives the name. -/
theorem name? (h : PlainName name) {token : Token} (hkind : token.kind = wordKind name.toList)
    (hlexeme : token.lexeme = name.toList) : token.name? = some name := by
  rw [wordKind, String.ofList_toList] at hkind
  cases hword : Keyword.ofWord? name with
  | none =>
    rw [hword] at hkind
    simp [Token.name?, hkind]
  | some keyword =>
    rw [hword] at hkind
    simp [Token.name?, hkind, h.unreserved keyword hword, Token.text, hlexeme]

end PlainName

/-- What stands in front of the literal. -/
def insertFront (table column : String) : List Char :=
  "INSERT".toList ++ ' ' :: ("INTO".toList ++ ' ' :: (table.toList ++ ' ' :: '(' ::
    (column.toList ++ ')' :: ' ' :: ("VALUES".toList ++ [' ', '(']))))

theorem toList_insertText (table column text : String) :
    (insertText table column text).toList =
      insertFront table column ++ '\'' :: (doubleQuotes text.toList ++ '\'' :: [')']) := by
  have hinsert : "INSERT INTO ".toList = "INSERT".toList ++ ' ' :: ("INTO".toList ++ [' ']) := rfl
  have hopen : " (".toList = [' ', '('] := rfl
  have hvalues : ") VALUES ('".toList = ')' :: ' ' :: ("VALUES".toList ++ [' ', '(', '\'']) := rfl
  have hclose : "')".toList = ['\'', ')'] := rfl
  -- the equations of the two definitions compare literals character by character
  delta insertText insertFront
  simp only [String.toList_append, String.toList_ofList, hinsert, hopen, hvalues, hclose,
    List.append_assoc, List.cons_append, List.nil_append]

/-- The tokens of the script. -/
def insertWriting (table column text : String) : List (TokenKind × List Char) :=
  [(.keyword .INSERT, "INSERT".toList), (.keyword .INTO, "INTO".toList),
    (wordKind table.toList, table.toList), (.mark .leftParen, ['(']),
    (wordKind column.toList, column.toList), (.mark .rightParen, [')']),
    (.keyword .VALUES, "VALUES".toList), (.mark .leftParen, ['(']),
    (.string '\'' text, '\'' :: doubleQuotes text.toList ++ ['\'']), (.mark .rightParen, [')'])]

section Text

variable {table column text : String} (htable : PlainName table) (hcolumn : PlainName column)
include htable hcolumn

theorem ordinary_insertFront : ∀ c ∈ insertFront table column, Ordinary c := by
  have hinsert : IsWord "INSERT".toList := by decide +kernel
  have hinto : IsWord "INTO".toList := by decide +kernel
  have hvalues : IsWord "VALUES".toList := by decide +kernel
  have hspace : Ordinary ' ' := by decide
  have hopen : Ordinary '(' := by decide
  have hclose : Ordinary ')' := by decide
  have hlist : ∀ c ∈ ' ' :: '(' :: (column.toList ++ ')' :: ' ' ::
      ("VALUES".toList ++ [' ', '('])), Ordinary c := by
    refine List.forall_mem_cons.2 ⟨hspace, List.forall_mem_cons.2 ⟨hopen, ?_⟩⟩
    refine List.forall_mem_append.2 ⟨hcolumn.word.ordinary, List.forall_mem_cons.2 ⟨hclose, ?_⟩⟩
    refine List.forall_mem_cons.2 ⟨hspace, List.forall_mem_append.2 ⟨hvalues.ordinary, ?_⟩⟩
    exact List.forall_mem_cons.2 ⟨hspace, by simpa using hopen⟩
  refine List.forall_mem_append.2 ⟨hinsert.ordinary, List.forall_mem_cons.2 ⟨hspace, ?_⟩⟩
  refine List.forall_mem_append.2 ⟨hinto.ordinary, List.forall_mem_cons.2 ⟨hspace, ?_⟩⟩
  exact List.forall_mem_append.2 ⟨htable.word.ordinary, hlist⟩

variable (htext : EvenBackslashes text.toList)
include htext

/-- In the whole script there is no comment, and nothing ends a statement. -/
theorem passes_insertText : Passes Quiet .code (insertText table column text).toList [] := by
  have hliteral : readString? '\'' (doubleQuotes text.toList ++ '\'' :: [')']) =
      some (text.toList, [')']) := readString?_doubleQuotes htext.paired (by decide)
  rw [toList_insertText]
  exact ((passes_run (ordinary_insertFront htable hcolumn) _).trans
    (passes_quote (.inl rfl) hliteral)).trans (passes_ordinary (by decide) .refl)

theorem lexes_insertText :
    Lexes (insertText table column text).toList (insertWriting table column text) := by
  have hinsert : IsWord "INSERT".toList ∧ wordKind "INSERT".toList = .keyword .INSERT := by
    decide +kernel
  have hinto : IsWord "INTO".toList ∧ wordKind "INTO".toList = .keyword .INTO := by
    decide +kernel
  have hvalues : IsWord "VALUES".toList ∧ wordKind "VALUES".toList = .keyword .VALUES := by
    decide +kernel
  have hspace : Text.continuesWord ' ' = false := by decide +kernel
  have hbracket : Text.continuesWord ')' = false := by decide +kernel
  -- the tokens from the last one to the first
  have hend : Lexes [')'] [(.mark .rightParen, [')'])] := Lexes.nil.rightParen
  have hgroup := (Lexes.literal htext.paired (by decide) hend).leftParen
  have hlist := (Lexes.word hvalues.1 hspace (hgroup.blank (c := ' ') rfl)).blank (c := ' ') rfl
  have hcolumns := (Lexes.word hcolumn.word hbracket hlist.rightParen).leftParen
  have htarget := Lexes.word htable.word hspace (hcolumns.blank (c := ' ') rfl)
  have hbehind := Lexes.word hinto.1 hspace (htarget.blank (c := ' ') rfl)
  have hall := Lexes.word hinsert.1 hspace (hbehind.blank (c := ' ') rfl)
  rw [hinsert.2, hinto.2, hvalues.2, String.ofList_toList] at hall
  rw [toList_insertText]
  delta insertFront insertWriting
  simpa only [List.append_assoc, List.cons_append, List.nil_append] using hall

omit htable hcolumn htext in
theorem toList_insertText_ne_nil : (insertText table column text).toList ≠ [] := by
  rw [toList_insertText]
  simp

omit htable hcolumn htext in
/-- No white space stands at either end of the script. -/
theorem trimChars_insertText :
    Text.trimChars (insertText table column text).toList =
      (insertText table column text).toList := by
  rw [toList_insertText]
  refine Text.trimChars_eq_self ?_ ?_
  · intro c hc
    cases hc
    decide
  · intro c hc
    have hend : insertFront table column ++ '\'' :: (doubleQuotes text.toList ++ '\'' :: [')']) =
        (insertFront table column ++ '\'' :: (doubleQuotes text.toList ++ ['\''])) ++ [')'] := by
      simp
    rw [hend, List.getLast?_concat] at hc
    cases hc
    decide

/-- The script is one statement, which is run as it stands. -/
theorem statements_insertText :
    statements (insertText table column text) = [insertText table column text] ∧
      stripComments (insertText table column text) = insertText table column text :=
  statements_of_quiet (passes_insertText htable hcolumn htext) trimChars_insertText
    toList_insertText_ne_nil

omit htable hcolumn htext in
theorem ofText?_insertText :
    StatementKind.ofText? (insertText table column text) = some .insert := by
  have hwords : ∀ rest,
      leadingWords [] 3 ("INSERT".toList ++ ' ' :: ("INTO".toList ++ ' ' :: rest)) =
        "INSERT" :: "INTO" :: leadingWords [] 1 rest := fun rest => rfl
  rw [StatementKind.ofText?, toList_insertText]
  delta insertFront
  simp only [List.append_assoc, List.cons_append]
  rw [hwords]
  rfl

omit htext in
/-- Tokens written like those of the script are read as the INSERT of the text. -/
theorem reads_of_writing {tokens : List Token}
    (h : writing tokens = insertWriting table column text) :
    Grammar.Reads (Grammar.readKind .insert) tokens
      (.insert ⟨table, some [column], [[.literal (.text text)]]⟩) [] := by
  obtain ⟨i, _, rfl, hi, -, h⟩ := writing_eq_cons h
  obtain ⟨o, _, rfl, ho, -, h⟩ := writing_eq_cons h
  obtain ⟨t, _, rfl, ht, htword, h⟩ := writing_eq_cons h
  obtain ⟨l, _, rfl, hl, -, h⟩ := writing_eq_cons h
  obtain ⟨c, _, rfl, hc, hcword, h⟩ := writing_eq_cons h
  obtain ⟨r, _, rfl, hr, -, h⟩ := writing_eq_cons h
  obtain ⟨v, _, rfl, hv, -, h⟩ := writing_eq_cons h
  obtain ⟨l', _, rfl, hl', -, h⟩ := writing_eq_cons h
  obtain ⟨s, _, rfl, hs, -, h⟩ := writing_eq_cons h
  obtain ⟨r', _, rfl, hr', -, h⟩ := writing_eq_cons h
  obtain rfl := List.map_eq_nil_iff.1 h
  have hread := Grammar.reads_insert hi ho (htable.name? ht htword) hl (hcolumn.name? hc hcword)
    hr hv hl' hs hr'
  rw [htable.small, hcolumn.small] at hread
  exact Grammar.reads_bind.2 ⟨_, _, hread, Grammar.reads_pure.2 ⟨rfl, rfl⟩⟩

/-- The script is read as the INSERT of the text. -/
theorem ofText_insertText (limit : Nat) :
    Statement.ofText limit (insertText table column text) =
      .ok (.insert ⟨table, some [column], [[.literal (.text text)]]⟩) :=
  Statement.ofText_of_lexes ofText?_insertText (lexes_insertText htable hcolumn htext)
    (fun _ hwritten => reads_of_writing htable hcolumn hwritten) limit

/-- Run on a well-formed catalog, the script leaves one record and one more row, which holds the
text. -/
theorem Engine.execute_insertText {engine : Engine} (h : engine.catalog.WellFormed) {found : Table}
    (hfind : engine.catalog.find? table = some found) (hhas : found.hasColumn column = true) :
    (engine.execute (insertText table column text)).1 =
        [.done (ChangeKind.insert.message table 1)] ∧
      ∃ changed row,
        (engine.execute (insertText table column text)).2.catalog.find? table = some changed ∧
          changed.rows = found.rows ++ [row] ∧ row.get? column = some (.text text) ∧
          ∀ other, Text.lower other ≠ table →
            (engine.execute (insertText table column text)).2.catalog.find? other =
              engine.catalog.find? other := by
  obtain ⟨hstatements, hstrip⟩ := statements_insertText htable hcolumn htext
  obtain ⟨after, changed, row, hinsert, hchanged, hrows, hrow, hothers⟩ :=
    h.insert_literal hfind hhas (show (Value.text text).isNull = false from rfl)
  have houtcome : engine.outcomeOf (insertText table column text) =
      .ok (.change .insert table 1, after) := by
    rw [engine.outcomeOf_of_read (ofText_insertText htable hcolumn htext _),
      Statement.execute_insert, hinsert, htable.small]
    rfl
  have hnonempty : insertText table column text ≠ "" :=
    fun hempty => toList_insertText_ne_nil (congrArg String.toList hempty)
  have hrun := engine.execute_single hstatements hstrip hnonempty houtcome
  rw [hrun]
  rw [htable.small] at hothers
  exact ⟨rfl, changed, row, hchanged, hrows, hrow, hothers⟩

end Text

/-- Whatever an engine has run, if it has a table with a column, an INSERT of a text into that
column leaves one record, which tells of one row, and that row is added to the table with the text
in the column. The text may hold anything but a run of backslashes of odd length in front of a quote
or at its end. -/
theorem Engine.insertText_run (settings : Settings) (commands : List Engine.Command)
    {table column text : String} {found : Table} (htable : PlainName table)
    (hcolumn : PlainName column) (htext : EvenBackslashes text.toList)
    (hfind : ((Engine.start settings).run commands).catalog.find? table = some found)
    (hhas : found.hasColumn column = true) :
    let engine := (Engine.start settings).run commands
    let result := engine.execute (insertText table column text)
    result.1 = [.done (ChangeKind.insert.message table 1)] ∧
      ∃ changed row, result.2.catalog.find? table = some changed ∧
        changed.rows = found.rows ++ [row] ∧ row.get? column = some (.text text) ∧
        ∀ other, Text.lower other ≠ table →
          result.2.catalog.find? other = engine.catalog.find? other := by
  have hwellFormed : ((Engine.start settings).run commands).catalog.WellFormed :=
    run_keeps Catalog.WellFormed.kept .empty (Engine.start settings) commands .empty
  exact execute_insertText htable hcolumn htext hwellFormed hfind hhas

/-- The text holds a quote behind two backslashes, a backslash in front of a letter, signs of
comments, semicolons, other quotes and a newline, and the name of the column is a keyword. -/
theorem Engine.insertText_run_marks :
    let engine := (Engine.start .standard).run [.script "CREATE TABLE t(key)"]
    let text := "it''s \\\\' \\n; -- /* \" \x60\n;*/"
    PlainName "t" ∧ PlainName "key" ∧ EvenBackslashes text.toList ∧
      engine.catalog.find? "t" = some (.create "t" [.plain "key" "TEXT"]) ∧
      (engine.execute (insertText "t" "key" text)).1 = [.done "1 row(s) inserted into 't'."] ∧
      ∃ changed row,
        (engine.execute (insertText "t" "key" text)).2.catalog.find? "t" = some changed ∧
          changed.rows = [row] ∧ row.get? "key" = some (.text text) := by
  dsimp only
  have htable : PlainName "t" := ⟨by decide +kernel, by decide +kernel, by decide +kernel⟩
  have hcolumn : PlainName "key" := ⟨by decide +kernel, by decide +kernel, by decide +kernel⟩
  have htext : EvenBackslashes "it''s \\\\' \\n; -- /* \" \x60\n;*/".toList := by decide +kernel
  have hfind : ((Engine.start .standard).run [.script "CREATE TABLE t(key)"]).catalog.find? "t" =
      some (.create "t" [.plain "key" "TEXT"]) := by
    decide +kernel
  obtain ⟨hrecord, changed, row, hchanged, hrows, hrow, -⟩ :=
    Engine.insertText_run .standard [.script "CREATE TABLE t(key)"] htable hcolumn htext hfind
      (by decide +kernel)
  have hmessage : ChangeKind.insert.message "t" 1 = "1 row(s) inserted into 't'." := by
    decide +kernel
  have hempty : (Table.create "t" [.plain "key" "TEXT"]).rows = [] := rfl
  rw [hmessage] at hrecord
  rw [hempty, List.nil_append] at hrows
  exact ⟨htable, hcolumn, htext, hfind, hrecord, changed, row, hchanged, hrows, hrow⟩

end SqlEngine
