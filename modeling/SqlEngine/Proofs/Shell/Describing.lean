import SqlEngine.Proofs.Engine.TextLiteral
import SqlEngine.Proofs.Script.Splitting
import SqlEngine.Shell

/-!
# Describing the tables in the shell

The shell describes all tables by running DESCRIBE with each of their names, written without quotes.
That is harmless as long as no name has a semicolon in it: what is run is then one statement, and
one that describes something or fails. It shows every table if the names can stand without quotes.
A name that needs quotes is not read back as it was, and behind a semicolon in a name begins a
statement of its own.
-/
namespace SqlEngine

open Lexer Script

/-- The script that describes a table of the given name. -/
def describeText (name : String) : String := "DESCRIBE " ++ name

theorem toList_describeText (name : String) :
    (describeText name).toList = "DESCRIBE".toList ++ ' ' :: name.toList := by
  have hword : "DESCRIBE ".toList = "DESCRIBE".toList ++ [' '] := rfl
  rw [describeText, String.toList_append, hword, List.append_assoc]
  rfl

theorem isWord_describe : IsWord "DESCRIBE".toList := by decide

section Frame

/-- The characters are a word with nothing or white space behind it. -/
def OpensWith (word cs : List Char) : Prop :=
  ∃ rest, cs = word ++ rest ∧ ∀ c ∈ rest.head?, Text.isBlank c = true

variable {word cs : List Char}

theorem isBlank_of_isWord (hword : IsWord word) : ∀ c ∈ word, Text.isBlank c = false :=
  fun c hc => (isPlain_of_continuesWord (List.all_eq_true.1 hword.2 c hc)).1

theorem OpensWith.ne_nil (hword : IsWord word) (h : OpensWith word cs) : cs ≠ [] := by
  obtain ⟨rest, rfl, -⟩ := h
  intro hnil
  obtain ⟨rfl, -⟩ := List.append_eq_nil_iff.1 hnil
  cases hword.1

/-- White space at the end of a text is cut off, but nothing of a word at its front. -/
theorem OpensWith.trimRight (hword : IsWord word) (h : OpensWith word cs) :
    OpensWith word (Text.trimRight cs) := by
  obtain ⟨rest, rfl, hrest⟩ := h
  induction rest using List.reverseRecOn with
  | nil =>
    have hlast : ∀ hne : word ++ [] ≠ [], ¬ Text.isBlank ((word ++ []).getLast hne) = true := by
      intro hne hblank
      rw [isBlank_of_isWord hword _ (by simp)] at hblank
      cases hblank
    have hkept : Text.trimRight (word ++ []) = word ++ [] := List.rdropWhile_eq_self_iff.2 hlast
    exact ⟨[], hkept, hrest⟩
  | append_singleton r c ih =>
    rw [← List.append_assoc]
    by_cases hc : Text.isBlank c = true
    · have hcut : Text.trimRight (word ++ r ++ [c]) = Text.trimRight (word ++ r) :=
        List.rdropWhile_concat_pos _ _ _ hc
      rw [hcut]
      refine ih fun d hd => hrest d ?_
      rw [List.head?_append, hd]
      rfl
    · have hkept : Text.trimRight (word ++ r ++ [c]) = word ++ r ++ [c] :=
        List.rdropWhile_concat_neg _ _ _ hc
      rw [hkept]
      exact ⟨r ++ [c], List.append_assoc _ _ _, hrest⟩

theorem OpensWith.trimChars (hword : IsWord word) (h : OpensWith word cs) :
    OpensWith word (Text.trimChars cs) := by
  have hleft : Text.trimLeft cs = cs := by
    obtain ⟨rest, rfl, -⟩ := h
    cases word with
    | nil => cases hword.1
    | cons c letters =>
      simp [Text.trimLeft, isBlank_of_isWord hword c List.mem_cons_self]
  rw [Text.trimChars, hleft]
  exact h.trimRight hword

/-- Neither a word nor white space is part of a comment. -/
theorem OpensWith.clean (hword : IsWord word) (h : OpensWith word cs) :
    OpensWith word (Script.clean .code cs) := by
  obtain ⟨rest, rfl, hrest⟩ := h
  have hall := List.all_eq_true.1 hword.2
  clear hword
  induction word with
  | nil =>
    refine ⟨Script.clean .code rest, rfl, ?_⟩
    cases rest with
    | nil => simp [clean_nil]
    | cons c behind =>
      have hc := hrest c rfl
      rw [clean_code (not_opensComment_of_isBlank hc)]
      simpa using hc
  | cons c letters ih =>
    obtain ⟨behind, hbehind, hblank⟩ := ih fun d hd => hall d (List.mem_cons_of_mem c hd)
    refine ⟨behind, ?_, hblank⟩
    rw [List.cons_append, (isPlain_of_continuesWord (hall c List.mem_cons_self)).clean, hbehind]
    rfl

theorem OpensWith.stripChars (hword : IsWord word) (h : OpensWith word cs) :
    OpensWith word (Script.stripChars cs) :=
  (h.clean hword).trimChars hword

/-- A text that begins with the word DESCRIBE is a statement of this kind. -/
theorem OpensWith.ofText? (h : OpensWith "DESCRIBE".toList cs) :
    StatementKind.ofText? (String.ofList cs) = some .describe := by
  obtain ⟨rest, rfl, hrest⟩ := h
  have hword : leadingWords [] 3 ("DESCRIBE".toList ++ rest) =
      leadingWords "EBIRCSED".toList 3 rest := rfl
  rw [StatementKind.ofText?, String.toList_ofList, hword]
  cases rest with
  | nil => rfl
  | cons c behind =>
    have hc := hrest c rfl
    have hletter : (Text.isLetter c || Text.isNumeral c || c == '_') = false := by
      refine Bool.eq_false_iff.2 fun hword => ?_
      rw [Text.isBlank_of_continuesWord hword] at hc
      cases hc
    rw [leadingWords, hletter, hc]
    rfl

/-- What is read as a DESCRIBE describes a table. -/
theorem exists_describe_of_ofTokens {list : TokenList} {s : Statement}
    (h : Statement.ofTokens .describe list = .ok s) : ∃ name, s = .describe name := by
  rw [Statement.ofTokens] at h
  split at h
  · cases h
  · next whole r hwhole =>
    cases h
    obtain ⟨left, hkind⟩ := Grammar.exists_readKind_of_readWhole ⟨r, hwhole, rfl⟩
    obtain ⟨name, _, -, hpure⟩ := Grammar.reads_bind.1 hkind
    exact ⟨name, (Grammar.reads_pure.1 hpure).1⟩

/-- A DESCRIBE leaves the engine as it is, whether it succeeds or not. -/
theorem Engine.runStatement_describe (engine : Engine) {raw : String}
    (h : OpensWith "DESCRIBE".toList raw.toList) : (engine.runStatement raw).2 = engine := by
  have hkind : StatementKind.ofText? (stripComments raw) = some .describe :=
    (h.stripChars isWord_describe).ofText?
  rcases engine.runStatement_cases raw with hrun | ⟨outcome, after, hok, hrun⟩ | ⟨e, -, hrun⟩
  · rw [hrun]
  · obtain ⟨statement, hread, hexecute⟩ := exists_of_outcomeOf hok
    rw [Statement.ofText, hkind] at hread
    obtain ⟨list, -, htokens⟩ := bind_eq_ok.1 hread
    obtain ⟨name, rfl⟩ := exists_describe_of_ofTokens htokens
    rw [Statement.execute_describe] at hexecute
    obtain ⟨listing, -, hpure⟩ := bind_eq_ok.1 hexecute
    cases hpure
    rw [hrun]
  · rw [hrun]

/-- A script without a semicolon is one statement at most. -/
theorem statements_of_no_semicolon {script : String} (h : ';' ∉ script.toList)
    (hne : Text.trimChars script.toList ≠ []) : statements script = [Text.trim script] := by
  have hwithin : ∀ p ∈ scan .code script.toList, Within p.2 := by
    intro p hp hterminator
    have hchar := eq_semicolon_of_mem_scan .code script.toList p hp hterminator
    have hmem : p.1 ∈ (scan .code script.toList).map Prod.fst := List.mem_map_of_mem hp
    rw [map_fst_scan, hchar] at hmem
    exact h hmem
  have hcut : cut (scan .code script.toList) = [script.toList] := by
    rw [cut_of_within hwithin, map_fst_scan]
  simp [statements, statementChars, hcut, hne, Text.trim]

theorem opensWith_describeText (name : String) :
    OpensWith "DESCRIBE".toList (describeText name).toList := by
  refine ⟨' ' :: name.toList, toList_describeText name, ?_⟩
  rintro c ⟨⟩
  decide

theorem trimChars_describeText_ne_nil (name : String) :
    Text.trimChars (describeText name).toList ≠ [] :=
  ((opensWith_describeText name).trimChars isWord_describe).ne_nil isWord_describe

/-- Describing a table with no semicolon in its name leaves the engine as it is. -/
theorem Engine.execute_describeText_snd (engine : Engine) {name : String}
    (h : ';' ∉ name.toList) : (engine.execute (describeText name)).2 = engine := by
  have hsemicolon : ';' ∉ (describeText name).toList := by
    rw [toList_describeText, List.mem_append, List.mem_cons, not_or, not_or]
    exact ⟨by decide, by decide, h⟩
  have hopens : OpensWith "DESCRIBE".toList (Text.trim (describeText name)).toList := by
    rw [Text.toList_trim]
    exact (opensWith_describeText name).trimChars isWord_describe
  have hrun := engine.runStatement_describe hopens
  have hstatements :=
    statements_of_no_semicolon hsemicolon (trimChars_describeText_ne_nil name)
  rw [engine.execute_of_statements hstatements]
  dsimp only
  exact hrun

end Frame

section Names

variable {name : String} (h : PlainName name)
include h

theorem statements_describeText :
    statements (describeText name) = [describeText name] ∧
      stripComments (describeText name) = describeText name := by
  have hordinary : ∀ c ∈ (describeText name).toList, Ordinary c := by
    rw [toList_describeText]
    exact List.forall_mem_append.2
      ⟨isWord_describe.ordinary, List.forall_mem_cons.2 ⟨by decide, h.word.ordinary⟩⟩
  have hquiet : Passes Quiet .code (describeText name).toList [] := by
    have hrun := passes_run hordinary []
    rwa [List.append_nil] at hrun
  have htrim : Text.trimChars (describeText name).toList = (describeText name).toList := by
    refine Text.trimChars_eq_self ?_ ?_
    · rw [toList_describeText]
      rintro c ⟨⟩
      decide
    · intro c hc
      have hname : name.toList ≠ [] := fun hnil => by simpa [IsWord, hnil] using h.word
      rw [toList_describeText, List.append_cons, List.getLast?_append_of_ne_nil _ hname] at hc
      exact isBlank_of_isWord h.word c (List.mem_of_getLast? hc)
  exact statements_of_quiet hquiet htrim
    fun hnil => trimChars_describeText_ne_nil name (htrim.trans hnil)

/-- The tokens of the script are the word DESCRIBE and the name. -/
theorem lexes_describeText : Lexes (describeText name).toList
    [(wordKind "DESCRIBE".toList, "DESCRIBE".toList), (wordKind name.toList, name.toList)] := by
  rw [toList_describeText]
  exact .word isWord_describe (by decide) ((Lexes.lastWord h.word).blank rfl)

theorem reads_describe {tokens : List Token} {word : TokenKind × List Char}
    (hwritten : writing tokens = [word, (wordKind name.toList, name.toList)]) :
    Grammar.Reads (Grammar.readKind .describe) tokens (.describe name) [] := by
  obtain ⟨d, _, rfl, -, -, hwritten⟩ := writing_eq_cons hwritten
  obtain ⟨n, _, rfl, hn, hnword, hwritten⟩ := writing_eq_cons hwritten
  obtain rfl := List.map_eq_nil_iff.1 hwritten
  have hskip : Grammar.Reads Grammar.skipOne [d, n] () [n] := ⟨_, rfl, rfl⟩
  have hname := Grammar.reads_name (h.name? hn hnword) []
  rw [h.small] at hname
  have hread : Grammar.Reads Grammar.readDescribe [d, n] name [] :=
    Grammar.reads_bind.2 ⟨(), _, hskip, hname⟩
  exact Grammar.reads_bind.2 ⟨_, _, hread, Grammar.reads_pure.2 ⟨rfl, rfl⟩⟩

/-- A table whose name can stand without quotes is described. -/
theorem Engine.execute_describeText (engine : Engine) {table : Table}
    (hfind : engine.catalog.find? name = some table) :
    engine.execute (describeText name) = ([.table (Query.describe table)], engine) := by
  obtain ⟨hstatements, hstrip⟩ := statements_describeText h
  have hkind : StatementKind.ofText? (describeText name) = some .describe := by
    have hopens := (opensWith_describeText name).ofText?
    rwa [String.ofList_toList] at hopens
  have hread := Statement.ofText_of_lexes hkind (lexes_describeText h)
    (fun _ hwritten => reads_describe h hwritten) engine.settings.statementPreview
  have houtcome : engine.outcomeOf (describeText name) =
      .ok (.listing (Query.describe table), engine.catalog) := by
    rw [engine.outcomeOf_of_read hread, Statement.execute_describe, Catalog.get, hfind]
    rfl
  have hnonempty : describeText name ≠ "" := fun hempty => by
    have hnil := trimChars_describeText_ne_nil name
    rw [hempty] at hnil
    exact hnil rfl
  exact engine.execute_single hstatements hstrip hnonempty houtcome

end Names

theorem statement_showTables (limit : Nat) :
    Statement.ofText limit "SHOW TABLES" = .ok .showTables := by
  have hshow : IsWord "SHOW".toList ∧ wordKind "SHOW".toList = .keyword .SHOW :=
    ⟨by decide, by decide +kernel⟩
  have htables : IsWord "TABLES".toList ∧ wordKind "TABLES".toList = .keyword .TABLES :=
    ⟨by decide, by decide +kernel⟩
  have hlexes : Lexes "SHOW TABLES".toList
      [(.keyword .SHOW, "SHOW".toList), (.keyword .TABLES, "TABLES".toList)] := by
    have hall := Lexes.word hshow.1 (by decide) ((Lexes.lastWord htables.1).blank (c := ' ') rfl)
    rwa [hshow.2, htables.2] at hall
  have hkind : StatementKind.ofText? "SHOW TABLES" = some .showTables := by decide
  refine Statement.ofText_of_lexes hkind hlexes ?_ limit
  intro tokens hwritten
  obtain ⟨s, _, rfl, hs, -, hwritten⟩ := writing_eq_cons hwritten
  obtain ⟨t, _, rfl, ht, -, hwritten⟩ := writing_eq_cons hwritten
  obtain rfl := List.map_eq_nil_iff.1 hwritten
  have hread : Grammar.Reads Grammar.readShowTables [s, t] () [] :=
    Grammar.reads_bind.2 ⟨(), _, Grammar.reads_keyword hs _, Grammar.reads_keyword ht _⟩
  exact Grammar.reads_bind.2 ⟨(), _, hread, Grammar.reads_pure.2 ⟨rfl, rfl⟩⟩

/-- Listing the tables succeeds and leaves the engine as it is. -/
theorem Engine.execute_showTables (engine : Engine) :
    engine.execute "SHOW TABLES" =
      ([if engine.catalog.isEmpty then .done noTablesMessage
        else .table (Query.showTables engine.catalog)], engine) := by
  have houtcome : engine.outcomeOf "SHOW TABLES" =
      .ok (if engine.catalog.isEmpty then .noTables
        else .listing (Query.showTables engine.catalog), engine.catalog) := by
    rw [engine.outcomeOf_of_read (statement_showTables _), Statement.execute_showTables]
    split <;> rfl
  rw [engine.execute_single (by decide) (by decide) (by decide) houtcome]
  split <;> rfl

/-- A well-formed catalog finds each of its tables by the name of the table. -/
theorem Catalog.WellFormed.find?_name {catalog : Catalog} (h : catalog.WellFormed) {table : Table}
    (hmem : table ∈ catalog.tables) : catalog.find? table.name = some table := by
  obtain ⟨key, -, hlookup⟩ := List.mem_filterMap.1 hmem
  obtain ⟨before, behind, hentries, -⟩ := List.lookup_eq_some_iff.1 hlookup
  have hentry : (key, table) ∈ catalog.entries := by
    rw [hentries]
    exact List.mem_append_right _ List.mem_cons_self
  obtain rfl : key = table.name := h.keys_own _ hentry
  rw [find?, (h.tables_wellFormed _ hentry).name_small]
  exact hlookup

namespace Shell

/-- What the description of a table should look like: its name, and its columns below it. -/
def tableLines (printer : Printer) (table : Table) : List String :=
  table.name :: printer.recordLines (.table (Query.describe table))

/-- What is printed of a table: its name, and below it what running its description has left. -/
def linesOf (shell : Shell) (table : Table) : List String :=
  table.name ::
    (shell.engine.execute (describeText table.name)).1.flatMap shell.printer.recordLines

/-- Tables with no semicolon in their names are described one after another, and the shell stays as
it is. -/
theorem describeAll_eq (shell : Shell) {tables : List Table}
    (h : ∀ t ∈ tables, ';' ∉ t.name.toList) :
    shell.describeAll (tables.map (·.name)) =
      (Printer.unlines (tables.flatMap shell.linesOf), shell) := by
  induction tables with
  | nil => rfl
  | cons t rest ih =>
    obtain ⟨hname, hrest⟩ := List.forall_mem_cons.1 h
    have hengine := shell.engine.execute_describeText_snd hname
    have hrun : shell.run (describeText t.name) =
        (shell.printer.print (shell.engine.execute (describeText t.name)).1, shell) := by
      rw [run]
      dsimp only
      rw [hengine]
    have hlines : Printer.unlines (shell.linesOf t) = t.name ++ "\n" ++
        shell.printer.print (shell.engine.execute (describeText t.name)).1 := by
      rw [linesOf, Printer.unlines_cons, Printer.print]
    rw [List.flatMap_cons, Printer.unlines_append, hlines, List.map_cons, describeAll,
      ← describeText, hrun]
    dsimp only
    rw [ih hrest]

/-- A table whose name can stand without quotes is shown with its columns. -/
theorem linesOf_of_plain (shell : Shell) {table : Table} (h : PlainName table.name)
    (hfind : shell.engine.catalog.find? table.name = some table) :
    shell.linesOf table = tableLines shell.printer table := by
  rw [linesOf, Engine.execute_describeText h shell.engine hfind, List.flatMap_singleton, tableLines]

/-- There is no semicolon in a name that can stand without quotes. -/
theorem semicolon_notMem_of_plain {name : String} (h : PlainName name) : ';' ∉ name.toList := by
  intro hmem
  have hword := List.all_eq_true.1 h.word.2 ';' hmem
  exact absurd hword (by decide)

/-- What a table is described with, when grids are printed: there is a column at least. -/
theorem recordLines_describe {printer : Printer} (hgrid : printer.json = false) {table : Table}
    (hcolumns : table.columns ≠ []) :
    printer.recordLines (.table (Query.describe table)) =
      Grid.lines printer.settings.cellWidth (Query.describe table) ++
        [toString table.columns.length ++ " row(s) returned"] := by
  have hrows : (Query.describe table).rows.length = table.columns.length := List.length_map _
  have hnote : Record.note? (Query.describe table) = none := by
    rw [Record.note?, if_neg]
    rw [List.isEmpty_iff, ← List.length_eq_zero_iff, hrows, List.length_eq_zero_iff]
    exact hcolumns
  rw [Printer.recordLines, hgrid, if_neg Bool.false_ne_true, hnote, hrows]

/-- Unless a statement is being typed, a line that begins with a point is a command. -/
theorem feed_command (shell : Shell) (hpending : shell.pending = "") {typed : String}
    (hpoint : (Text.trim typed).startsWith "." = true) :
    shell.feed typed = shell.command (Text.trim typed) := by
  rw [feed, hpoint, hpending, if_pos (by decide)]

theorem feed_tables (shell : Shell) (hpending : shell.pending = "") :
    shell.feed ".tables" = goOn (shell.run "SHOW TABLES") := by
  have hwords : (Text.wordsFrom [] (Text.trim ".tables").toList).map String.ofList =
      [".tables"] := by decide
  rw [shell.feed_command hpending (by decide +kernel), command, hwords]
  rfl

theorem feed_schema (shell : Shell) (hpending : shell.pending = "") :
    shell.feed ".schema" =
      if shell.engine.catalog.names = [] then goOn ("No tables.\n", shell)
      else goOn (shell.describeAll shell.engine.catalog.names) := by
  have hwords : (Text.wordsFrom [] (Text.trim ".schema").toList).map String.ofList =
      [".schema"] := by decide
  rw [shell.feed_command hpending (by decide +kernel), command, hwords]
  cases shell.engine.catalog.names with
  | nil => simp
  | cons name rest => simp

/-- Whatever an engine has run: listing the tables in the shell leaves the shell as it is, with its
catalog. So does describing all of them, if no name of a table has a semicolon in it: then each has
its name printed, in the order of their creation, and below it what its description has left. For a
table whose name can stand without quotes that is the grid of its columns and their number, whatever
the other names are; if every name can, each table is described. -/
theorem feed_schema_run (settings : Settings) (commands : List Engine.Command)
    (printer : Printer) :
    let engine := (Engine.start settings).run commands
    let shell : Shell := ⟨printer, engine, ""⟩
    let tables := engine.catalog.tables
    (∃ output, shell.feed ".tables" = ⟨output, "", some shell⟩) ∧
    ((∀ t ∈ tables, ';' ∉ t.name.toList) →
      shell.feed ".schema" =
        ⟨if tables = [] then "No tables.\n"
          else Printer.unlines (tables.flatMap shell.linesOf), "", some shell⟩) ∧
    (∀ t ∈ tables, PlainName t.name → shell.linesOf t = tableLines printer t) ∧
    ((∀ t ∈ tables, PlainName t.name) →
      shell.feed ".schema" =
        ⟨if tables = [] then "No tables.\n"
          else Printer.unlines (tables.flatMap (tableLines printer)), "", some shell⟩) ∧
    (printer.json = false → ∀ t ∈ tables,
      tableLines printer t =
        t.name :: Grid.lines printer.settings.cellWidth (Query.describe t) ++
          [toString t.columns.length ++ " row(s) returned"]) := by
  intro engine shell tables
  have hwellFormed : engine.catalog.WellFormed := Engine.run_wellFormed settings commands
  have hplain : ∀ t ∈ tables, PlainName t.name → shell.linesOf t = tableLines printer t :=
    fun t ht h => shell.linesOf_of_plain h (hwellFormed.find?_name ht)
  have hschema : (∀ t ∈ tables, ';' ∉ t.name.toList) → shell.feed ".schema" =
      ⟨if tables = [] then "No tables.\n" else Printer.unlines (tables.flatMap shell.linesOf), "",
        some shell⟩ := by
    intro hnames
    have hempty : shell.engine.catalog.names = [] ↔ tables = [] := List.map_eq_nil_iff
    rw [feed_schema shell rfl]
    simp only [hempty]
    split
    · rfl
    · rw [Catalog.names, describeAll_eq shell hnames]
      rfl
  refine ⟨?_, hschema, hplain, ?_, ?_⟩
  · refine ⟨printer.print (engine.execute "SHOW TABLES").1, ?_⟩
    rw [feed_tables shell rfl, run, Engine.execute_showTables]
    rfl
  · intro hnames
    rw [hschema fun t ht => semicolon_notMem_of_plain (hnames t ht),
      List.flatMap_congr fun t ht => hplain t ht (hnames t ht)]
  · intro hgrid t ht
    have hcolumns : t.columns ≠ [] :=
      (hwellFormed.of_get (Catalog.get_eq_ok.2 (hwellFormed.find?_name ht))).columns_nonempty
    rw [tableLines, recordLines_describe hgrid hcolumns]
    rfl

/-- Two tables, the later name before the earlier one in the alphabet; and one that is shown behind
another with a blank in its name. -/
theorem feed_schema_run_letters :
    let engine := (Engine.start .standard).run [.script "CREATE TABLE b(v INT);CREATE TABLE a(w)"]
    let shell : Shell := ⟨⟨false, .standard⟩, engine, ""⟩
    let mixed := (Engine.start .standard).run [.script "CREATE TABLE \"b c\"(v);CREATE TABLE a(w)"]
    let other : Shell := ⟨⟨false, .standard⟩, mixed, ""⟩
    let grid :=
      ["a",
        "┌────────┬──────┬────┬─────────┐",
        "│ column │ type │ pk │ notnull │",
        "├────────┼──────┼────┼─────────┤",
        "│ w      │ TEXT │ NO │ NO      │",
        "└────────┴──────┴────┴─────────┘",
        "1 row(s) returned"]
    let grids :=
      ["b",
        "┌────────┬──────┬────┬─────────┐",
        "│ column │ type │ pk │ notnull │",
        "├────────┼──────┼────┼─────────┤",
        "│ v      │ INT  │ NO │ NO      │",
        "└────────┴──────┴────┴─────────┘",
        "1 row(s) returned"] ++ grid
    shell.feed ".schema" = ⟨Printer.unlines grids, "", some shell⟩ ∧
      ∃ lines, other.feed ".schema" =
        ⟨Printer.unlines ("b c" :: lines ++ grid), "", some other⟩ := by
  intro engine shell mixed other grid grids
  have ha : PlainName "a" := ⟨by decide +kernel, by decide +kernel, by decide +kernel⟩
  have hb : PlainName "b" := ⟨by decide +kernel, by decide +kernel, by decide +kernel⟩
  constructor
  · have htables : engine.catalog.tables =
        [.create "b" [.plain "v" "INT"], .create "a" [.plain "w" "TEXT"]] := by decide +kernel
    have hplain : ∀ t ∈ engine.catalog.tables, PlainName t.name := by
      rw [htables]
      exact List.forall_mem_cons.2 ⟨hb, List.forall_mem_cons.2 ⟨ha, nofun⟩⟩
    have hlines : engine.catalog.tables.flatMap (tableLines ⟨false, .standard⟩) = grids := by
      rw [htables]
      decide +kernel
    obtain ⟨-, -, -, hschema, -⟩ := feed_schema_run .standard
      [.script "CREATE TABLE b(v INT);CREATE TABLE a(w)"] ⟨false, .standard⟩
    have hsome : engine.catalog.tables ≠ [] := by simp [htables]
    have hreply := hschema hplain
    rw [if_neg hsome, hlines] at hreply
    exact hreply
  · let quoted : Table := .create "b c" [.plain "v" "TEXT"]
    let plain : Table := .create "a" [.plain "w" "TEXT"]
    have htables : mixed.catalog.tables = [quoted, plain] := by decide +kernel
    have hnames : ∀ t ∈ mixed.catalog.tables, ';' ∉ t.name.toList := by
      rw [htables]
      decide +kernel
    have hgrid : tableLines ⟨false, .standard⟩ plain = grid := by decide +kernel
    have hname : quoted.name = "b c" := by decide +kernel
    obtain ⟨-, hschema, hplain, -⟩ := feed_schema_run .standard
      [.script "CREATE TABLE \"b c\"(v);CREATE TABLE a(w)"] ⟨false, .standard⟩
    have hshown : other.linesOf plain = grid := by
      rw [← hgrid]
      refine hplain plain ?_ ha
      rw [htables]
      exact List.mem_cons_of_mem _ List.mem_cons_self
    have hsome : mixed.catalog.tables ≠ [] := by simp [htables]
    have hreply := hschema hnames
    rw [if_neg hsome, htables, List.flatMap_cons, List.flatMap_singleton, hshown, linesOf,
      hname] at hreply
    exact ⟨_, hreply⟩

/-- Behind the semicolon in a name stands what is then run: a table is dropped. -/
theorem feed_schema_drops :
    let engine := (Engine.start .standard).run
      [.script "CREATE TABLE y(v);CREATE TABLE \"a;drop table y\"(w)"]
    let reply := (⟨⟨false, .standard⟩, engine, ""⟩ : Shell).feed ".schema"
    engine.catalog.names = ["y", "a;drop table y"] ∧
      reply.next.map (·.engine.catalog.names) = some ["a;drop table y"] := by
  decide +kernel

end Shell
end SqlEngine
