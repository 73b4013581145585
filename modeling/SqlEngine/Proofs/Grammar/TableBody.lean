import SqlEngine.Proofs.Grammar.Columns
import SqlEngine.Proofs.Grammar.Declaration
import SqlEngine.Proofs.Grammar.InsertReads
import SqlEngine.Proofs.Grammar.Leading

/-!
# The body of a table

A CREATE TABLE that ends with its body is read declaration by declaration. Columns and the names in
keys are collected, and the keys are marked at the end, so that a key may be declared before the
column that it names. It is read exactly when there is a column, no two columns have the same name
in small letters, and every key names a column. The names in keys are compared with those of columns
as these are kept, in small letters, and without regard to the case of ASCII letters.
-/
namespace SqlEngine

namespace Grammar

/-- Declarations with a comma between each two of them. -/
inductive ListWritten : List Declaration → List Token → Prop
  | last {declaration : Declaration} {ts : List Token} (h : declaration.Written ts) :
      ListWritten [declaration] ts
  | more {declaration : Declaration} {comma : Token} {declarations : List Declaration}
      {ts us : List Token} (h : declaration.Written ts) (hcomma : comma.kind = .mark .comma)
      (hrest : ListWritten declarations us) :
      ListWritten (declaration :: declarations) (ts ++ comma :: us)

/-- The columns and keys collected from some declarations, added to those that are there. -/
def addAll (table : String) (body : Body) (declarations : List Declaration) :
    Except Refusal Body :=
  declarations.foldlM (fun body declaration => body.add table declaration.definition) body

section Body

variable {table : String} {body whole : Body} {definition : Definition} {t : Token}
  {ts after left : List Token}

theorem reads_body_last (hread : Reads readDefinition ts definition (t :: after))
    (ht : t.kind ≠ .mark .comma) :
    Reads (readBody table body) ts whole left ↔
      body.add table definition = .ok whole ∧ left = t :: after := by
  obtain ⟨⟨_, hsuffix⟩, hr, rfl⟩ := hread
  unfold Reads
  rw [readBody, hr]
  dsimp only
  cases body.add table definition with
  | error e => simp
  | ok larger =>
    dsimp only
    rw [if_neg ht]
    constructor
    · rintro ⟨r, hr, rfl⟩
      cases hr
      exact ⟨rfl, rfl⟩
    · rintro ⟨heq, rfl⟩
      cases heq
      exact ⟨_, rfl, rfl⟩

theorem reads_body_more (hread : Reads readDefinition ts definition (t :: after))
    (ht : t.kind = .mark .comma) :
    Reads (readBody table body) ts whole left ↔
      ∃ larger, body.add table definition = .ok larger ∧
        Reads (readBody table larger) after whole left := by
  obtain ⟨⟨_, hsuffix⟩, hr, rfl⟩ := hread
  unfold Reads
  rw [readBody, hr]
  dsimp only
  cases body.add table definition with
  | error e => simp
  | ok larger =>
    simp only [Except.ok.injEq, exists_eq_left']
    rw [if_pos ht]
    constructor
    · rintro ⟨r, hr, rfl⟩
      cases hrest : readBody table larger after with
      | error e =>
        rw [hrest] at hr
        cases hr
      | ok read =>
        rw [hrest] at hr
        cases hr
        exact ⟨read.2, rfl, rfl⟩
    · rintro ⟨r, hr, rfl⟩
      rw [hr]
      exact ⟨_, rfl, rfl⟩

/-- The declarations in brackets are added one after another. -/
theorem reads_body {declarations : List Declaration} (h : ListWritten declarations ts)
    {right : Token} (hright : right.kind = .mark .rightParen) (rest : List Token) :
    Reads (readBody table body) (ts ++ right :: rest) whole left ↔
      addAll table body declarations = .ok whole ∧ left = right :: rest := by
  have hne : right.kind ≠ .mark .comma := by
    rw [hright]
    decide
  induction h generalizing body with
  | last h =>
    rw [reads_body_last (h.reads (.inr hright) rest) hne, addAll, List.foldlM_cons]
    simp only [List.foldlM_nil, bind_pure]
  | @more declaration comma declarations ts us h hcomma hrest ih =>
    rw [List.append_assoc, List.cons_append, reads_body_more (h.reads (.inl hcomma) _) hcomma,
      addAll, List.foldlM_cons, bind_eq_ok]
    simp only [ih, addAll, exists_and_right, ← and_assoc]

end Body

/-- The columns that are declared, in order, each with the tokens that declare it. -/
def declaredColumns (declarations : List Declaration) : List (String × List Token) :=
  declarations.filterMap Declaration.column?

/-- The names that are declared primary keys of the table. -/
def declaredKeys (declarations : List Declaration) : List String :=
  declarations.flatMap Declaration.keys

/-- The columns as their declarations alone give them. -/
def columnsAlone (declarations : List Declaration) : List Column :=
  (declaredColumns declarations).map fun declared => Declaration.columnOf declared.1 declared.2

theorem map_name_columnsAlone (declarations : List Declaration) :
    (columnsAlone declarations).map (·.name) =
      (declaredColumns declarations).map fun declared => Text.lower declared.1 := by
  rw [columnsAlone, List.map_map]
  rfl

section Adding

variable {table : String} {body whole : Body}

theorem add_column_eq {column : Column} : body.add table (.column column) =
    if column.name ∈ body.columns.map (·.name) then
      .error (.schema (.duplicateColumn column.name table))
    else .ok ⟨body.columns ++ [column], body.key⟩ := by
  have hany : (body.columns.any (·.name == column.name)) = true ↔
      column.name ∈ body.columns.map (·.name) := by
    simp [List.any_eq_true]
  rw [Body.add]
  simp only [hany]

/-- Declarations can be added to a body exactly when no column is declared twice. -/
theorem addAll_eq_ok {declarations : List Declaration} (hbody : (body.columns.map (·.name)).Nodup) :
    addAll table body declarations = .ok whole ↔
      ((body.columns ++ columnsAlone declarations).map (·.name)).Nodup ∧
        whole = ⟨body.columns ++ columnsAlone declarations,
          body.key ++ declaredKeys declarations⟩ := by
  induction declarations generalizing body with
  | nil =>
    have hnone : addAll table body [] = .ok body := rfl
    simp [hnone, columnsAlone, declaredColumns, declaredKeys, hbody, eq_comm]
  | cons declaration declarations ih =>
    have hstep : addAll table body (declaration :: declarations) =
        (body.add table declaration.definition) >>= fun larger =>
          addAll table larger declarations := by
      rw [addAll, List.foldlM_cons]
      rfl
    rw [hstep]
    cases declaration with
    | column name tokens =>
      let column := Declaration.columnOf name tokens
      have hcolumns : body.columns ++ columnsAlone (.column name tokens :: declarations) =
          body.columns ++ [column] ++ columnsAlone declarations := by
        rw [List.append_assoc]
        rfl
      rw [hcolumns]
      change body.add table (.column column) >>= _ = _ ↔ _
      rw [add_column_eq]
      by_cases hdeclared : column.name ∈ body.columns.map (·.name)
      · rw [if_pos hdeclared]
        refine ⟨fun h => (by cases h), fun h => ?_⟩
        rw [List.append_assoc, List.map_append, List.nodup_append] at h
        exact absurd rfl (h.1.2.2 column.name hdeclared column.name List.mem_cons_self)
      · rw [if_neg hdeclared]
        have hlarger : ((body.columns ++ [column]).map (·.name)).Nodup := by
          rw [List.map_append, List.map_singleton, List.nodup_append]
          refine ⟨hbody, List.pairwise_singleton _ _, fun a ha b hb => ?_⟩
          rw [List.mem_singleton.1 hb]
          rintro rfl
          exact hdeclared ha
        exact ih hlarger
    | key names =>
      have hkeys : body.key ++ declaredKeys (.key names :: declarations) =
          body.key ++ names ++ declaredKeys declarations := by
        rw [List.append_assoc]
        rfl
      rw [hkeys]
      exact ih hbody
    | constraint => exact ih hbody

theorem addAll_empty_eq_ok {declarations : List Declaration} :
    addAll table ⟨[], []⟩ declarations = .ok whole ↔
      ((declaredColumns declarations).map fun declared => Text.lower declared.1).Nodup ∧
        whole = ⟨columnsAlone declarations, declaredKeys declarations⟩ := by
  have hnone : ((⟨[], []⟩ : Body).columns.map (·.name)).Nodup := List.nodup_nil
  rw [addAll_eq_ok hnone, List.nil_append, List.nil_append, map_name_columnsAlone]

end Adding

/-- The words IF NOT EXISTS, or nothing. Without them, a table whose name is not quoted is not named
IF. -/
inductive GuardWritten (name : Token) : Bool → List Token → Prop
  | absent (h : name.kind ≠ .keyword .IF) : GuardWritten name false []
  | present {first second third : Token} (hfirst : first.kind = .keyword .IF)
      (hsecond : second.kind = .keyword .NOT) (hthird : third.kind = .keyword .EXISTS) :
      GuardWritten name true [first, second, third]

/-- Declarations between commas, or none at all. -/
inductive BodyWritten : List Declaration → List Token → Prop
  | none : BodyWritten [] []
  | some {declarations : List Declaration} {ts : List Token} (h : ListWritten declarations ts) :
      BodyWritten declarations ts

/-- A CREATE TABLE that ends with the bracket behind its body. -/
inductive TableWritten (table : String) (ifNotExists : Bool) (declarations : List Declaration) :
    List Token → Prop
  | intro {create word name left right : Token} {guard ts : List Token}
      (hcreate : create.kind = .keyword .CREATE) (hword : word.kind = .keyword .TABLE)
      (hguard : GuardWritten name ifNotExists guard) (hname : name.name? = Option.some table)
      (hleft : left.kind = .mark .leftParen) (hbody : BodyWritten declarations ts)
      (hright : right.kind = .mark .rightParen) :
      TableWritten table ifNotExists declarations
        (create :: word :: (guard ++ name :: left :: (ts ++ [right])))

theorem GuardWritten.reads {name : Token} {flag : Bool} {guard : List Token}
    (h : GuardWritten name flag guard) (rest : List Token) :
    Reads readIfNotExists (guard ++ name :: rest) flag (name :: rest) := by
  cases h with
  | absent h =>
    have habsent : ∀ t ∈ (name :: rest).head?, t.kind ≠ .keyword .IF := by
      rintro t ⟨⟩
      exact h
    exact reads_bind.2 ⟨false, _, reads_optional_absent habsent, reads_pure.2 ⟨rfl, rfl⟩⟩
  | present hfirst hsecond hthird =>
    exact reads_bind.2 ⟨true, _, reads_optional hfirst _,
      reads_bind.2 ⟨(), _, reads_keyword hsecond _,
        reads_bind.2 ⟨(), _, reads_keyword hthird _, reads_pure.2 ⟨rfl, rfl⟩⟩⟩⟩

/-- An empty body is not read. -/
theorem not_reads_body_empty {table : String} {body whole : Body} {right : Token}
    {rest left : List Token} (hright : right.kind = .mark .rightParen) :
    ¬ Reads (readBody table body) (right :: rest) whole left := by
  rintro ⟨r, hr, -⟩
  have hread : readDefinition (right :: rest) =
      .error (.complaint (some right) .expectedDefinition) := by
    simp [readDefinition, definitionTokens, hright, definitionOf]
  rw [readBody, hread] at hr
  cases hr

section Table

variable {table : String} {ifNotExists : Bool} {declarations : List Declaration}
  {ts left : List Token}

theorem reads_bodyWritten {body whole : Body} (h : BodyWritten declarations ts) {right : Token}
    (hright : right.kind = .mark .rightParen) (rest : List Token) :
    Reads (readBody table body) (ts ++ right :: rest) whole left ↔
      declarations ≠ [] ∧ addAll table body declarations = .ok whole ∧ left = right :: rest := by
  cases h with
  | none => simpa using not_reads_body_empty hright
  | some h =>
    have hne : declarations ≠ [] := by
      cases h <;> exact List.cons_ne_nil _ _
    rw [reads_body h hright, and_iff_right hne]

/-- A table is read when its declarations can be added, its keys marked and a column is there. -/
theorem reads_createTable (h : TableWritten table ifNotExists declarations ts) {s : CreateTable} :
    Reads readCreateTable ts s left ↔ left = [] ∧ ∃ body columns,
      addAll (Text.lower table) ⟨[], []⟩ declarations = .ok body ∧
        markKeys body.columns body.key = .ok columns ∧ columns ≠ [] ∧
          s = ⟨Text.lower table, ifNotExists, columns⟩ := by
  obtain ⟨hcreate, hword, hguard, hname, hleft, hbody, hright⟩ := h
  rw [readCreateTable, reads_bind_iff (reads_keyword hcreate _),
    reads_bind_iff (reads_keyword hword _), reads_bind_iff (hguard.reads _),
    reads_bind_iff (reads_name hname _), reads_bind_iff (reads_mark hleft _)]
  refine reads_bind.trans ?_
  constructor
  · rintro ⟨body, mid, hread, h⟩
    obtain ⟨-, hadd, rfl⟩ := (reads_bodyWritten hbody hright []).1 hread
    rw [reads_bind_iff (reads_mark hright [])] at h
    obtain ⟨columns, _, hsettle, h⟩ := reads_bind.1 h
    obtain ⟨hmark, rfl⟩ := reads_settle.1 hsettle
    split at h
    · obtain ⟨_, hrefuse, -⟩ := h
      cases hrefuse
    · next hcolumns =>
      obtain ⟨rfl, rfl⟩ := reads_pure.1 h
      exact ⟨rfl, body, columns, hadd, hmark, by simpa using hcolumns, rfl⟩
  · rintro ⟨rfl, body, columns, hadd, hmark, hcolumns, rfl⟩
    have hne : declarations ≠ [] := by
      rintro rfl
      cases hadd
      cases hmark
      exact hcolumns rfl
    refine ⟨body, _, (reads_bodyWritten hbody hright []).2 ⟨hne, hadd, rfl⟩, ?_⟩
    rw [reads_bind_iff (reads_mark hright []), reads_bind_iff (reads_settle.2 ⟨hmark, rfl⟩),
      if_neg (by simpa using hcolumns)]
    exact reads_pure.2 ⟨rfl, rfl⟩

/-- A CREATE TABLE that ends with its body is the whole statement. -/
theorem reads_whole_createTable (h : TableWritten table ifNotExists declarations ts)
    {s : Statement} : Reads (readWhole .createTable) ts s left ↔
      left = [] ∧ ∃ create, Reads readCreateTable ts create [] ∧ s = .createTable create := by
  constructor
  · intro hwhole
    obtain ⟨statement, mid, hkind, hend⟩ := reads_bind.1 hwhole
    obtain ⟨create, _, hcreate, hpure⟩ := reads_bind.1 hkind
    obtain ⟨rfl, rfl⟩ := reads_pure.1 hpure
    obtain ⟨rfl, -⟩ := (reads_createTable h).1 hcreate
    rw [reads_bind_iff (reads_optional_absent (by simp)), reads_bind_iff (reads_ahead [])] at hend
    obtain ⟨rfl, rfl⟩ := reads_pure.1 hend
    exact ⟨rfl, create, hcreate, rfl⟩
  · rintro ⟨rfl, create, hcreate, rfl⟩
    have hkind : Reads (readKind .createTable) ts (.createTable create) [] :=
      reads_bind.2 ⟨create, [], hcreate, reads_pure.2 ⟨rfl, rfl⟩⟩
    rw [readWhole, reads_bind_iff hkind, reads_bind_iff (reads_optional_absent (by simp)),
      reads_bind_iff (reads_ahead [])]
    exact reads_pure.2 ⟨rfl, rfl⟩

end Table

/-- What declarations need to be those of a table. -/
structure Consistent (declarations : List Declaration) : Prop where
  nonempty : declaredColumns declarations ≠ []
  distinct : ((declaredColumns declarations).map fun declared => Text.lower declared.1).Nodup
  known : ∀ key ∈ declaredKeys declarations, ∃ declared ∈ declaredColumns declarations,
    Text.sameName (Text.lower declared.1) key = true

section Outcome

variable {table : String} {ifNotExists : Bool} {declarations : List Declaration} {ts : List Token}

/-- Names in small letters that differ are not the same name. -/
theorem distinctNames_of_nodup
    (h : ((declaredColumns declarations).map fun declared => Text.lower declared.1).Nodup) :
    Row.DistinctNames ((columnsAlone declarations).map (·.name)) := by
  rw [map_name_columnsAlone]
  refine List.pairwise_map.2 ((List.pairwise_map.1 h).imp fun hne => ?_)
  rw [Bool.eq_false_iff]
  exact fun hsame => hne (Text.eq_of_sameName_lower hsame)

/-- A table is read exactly when its declarations are consistent. -/
theorem exists_createTable_iff (h : TableWritten table ifNotExists declarations ts) :
    (∃ create, Reads readCreateTable ts create []) ↔ Consistent declarations := by
  have hknown : (∃ marked, markKeys (columnsAlone declarations) (declaredKeys declarations) =
      .ok marked) ↔ ∀ key ∈ declaredKeys declarations, ∃ declared ∈ declaredColumns declarations,
        Text.sameName (Text.lower declared.1) key = true := by
    rw [exists_markKeys_iff, map_name_columnsAlone]
    simp only [List.mem_map, exists_exists_and_eq_and]
  have hnonempty : ∀ {marked : List Column},
      markKeys (columnsAlone declarations) (declaredKeys declarations) = .ok marked →
        (marked ≠ [] ↔ declaredColumns declarations ≠ []) := by
    intro marked hmarked
    have hnames := map_name_markKeys hmarked
    rw [map_name_columnsAlone] at hnames
    rw [not_iff_not, ← List.map_eq_nil_iff (f := fun column : Column => column.name), hnames,
      List.map_eq_nil_iff]
  constructor
  · rintro ⟨create, hread⟩
    obtain ⟨-, body, marked, hbody, hmarked, hcolumns, -⟩ := (reads_createTable h).1 hread
    obtain ⟨hdistinct, rfl⟩ := addAll_empty_eq_ok.1 hbody
    exact ⟨(hnonempty hmarked).1 hcolumns, hdistinct, hknown.1 ⟨marked, hmarked⟩⟩
  · rintro ⟨hcolumns, hdistinct, hkeys⟩
    obtain ⟨marked, hmarked⟩ := hknown.2 hkeys
    exact ⟨_, (reads_createTable h).2 ⟨rfl, _, marked, addAll_empty_eq_ok.2 ⟨hdistinct, rfl⟩,
      hmarked, (hnonempty hmarked).2 hcolumns, rfl⟩⟩

/-- A table that was read has one column for each that is declared. -/
theorem gives_of_createTable (h : TableWritten table ifNotExists declarations ts)
    {create : CreateTable} (hread : Reads readCreateTable ts create []) :
    ∃ columns, create = ⟨Text.lower table, ifNotExists, columns⟩ ∧
      List.Forall₂ (fun declared column =>
        Gives (declaredKeys declarations) declared.1 declared.2 column)
        (declaredColumns declarations) columns := by
  obtain ⟨-, body, marked, hadd, hmarked, -, rfl⟩ := (reads_createTable h).1 hread
  obtain ⟨hdistinct, rfl⟩ := addAll_empty_eq_ok.1 hadd
  refine ⟨marked, rfl, ?_⟩
  rw [markKeys_eq_map (distinctNames_of_nodup hdistinct) hmarked, columnsAlone, List.map_map,
    List.forall₂_map_right_iff, List.forall₂_same]
  exact fun declared _ => gives_columnOf _ declared.1 declared.2

theorem TableWritten.leads (h : TableWritten table ifNotExists declarations ts) :
    StatementKind.createTable.Leads (ts.map (·.kind)) := by
  obtain ⟨hcreate, hword, -, -, -, -, -⟩ := h
  refine ⟨[.CREATE, .TABLE], List.mem_singleton_self _, ?_⟩
  simp only [List.map_cons, List.map_nil, hcreate, hword]
  exact ⟨_, rfl⟩

end Outcome
end Grammar

theorem Statement.ofTokens_eq_ok_iff {kind : StatementKind} {list : TokenList} {s : Statement} :
    Statement.ofTokens kind list = .ok s ↔
      ∃ left, Grammar.Reads (Grammar.readWhole kind) list.tokens s left := by
  rw [ofTokens]
  constructor
  · intro h
    split at h
    · cases h
    · next r hr =>
      cases h
      exact ⟨r.1, r, hr, rfl⟩
  · rintro ⟨left, r, hr, -⟩
    rw [hr]

/-- A CREATE TABLE that ends with its body is read exactly when its declarations are consistent, and
it has then one column for each column that is declared, in the same order. -/
theorem Statement.ofText_createTable {sql table : String} {ifNotExists : Bool} {list : TokenList}
    {declarations : List Grammar.Declaration}
    (h : Lexer.tokens (Script.stripComments sql) = .ok list)
    (hwritten : Grammar.TableWritten table ifNotExists declarations list.tokens) (limit : Nat) :
    ((∃ s, Statement.ofText limit (Script.stripComments sql) = .ok s) ↔
        Grammar.Consistent declarations) ∧
      ∀ s, Statement.ofText limit (Script.stripComments sql) = .ok s →
        ∃ columns, s = .createTable ⟨Text.lower table, ifNotExists, columns⟩ ∧
          List.Forall₂ (fun declared column =>
            Grammar.Gives (Grammar.declaredKeys declarations) declared.1 declared.2 column)
            (Grammar.declaredColumns declarations) columns := by
  have hread : ∀ s, Statement.ofText limit (Script.stripComments sql) = .ok s ↔
      ∃ create, Grammar.Reads Grammar.readCreateTable list.tokens create [] ∧
        s = .createTable create := by
    intro s
    rw [ofText_of_leads h hwritten.leads, ofTokens_eq_ok_iff]
    simp only [Grammar.reads_whole_createTable hwritten, exists_eq_left]
  constructor
  · rw [← Grammar.exists_createTable_iff hwritten]
    simp only [hread]
    exact ⟨fun ⟨_, create, hcreate, _⟩ => ⟨create, hcreate⟩,
      fun ⟨create, hcreate⟩ => ⟨_, create, hcreate, rfl⟩⟩
  · intro s hs
    obtain ⟨create, hcreate, rfl⟩ := (hread s).1 hs
    obtain ⟨columns, rfl, hcolumns⟩ := Grammar.gives_of_createTable hwritten hcreate
    exact ⟨columns, rfl, hcolumns⟩

deriving instance DecidableEq for Token

/-- A token on the first line of a text in ASCII. -/
def Token.onFirstLine (offset : Nat) (gap : String) (kind : TokenKind) (lexeme : String) : Token :=
  ⟨kind, gap.toList, lexeme.toList, ⟨offset, 1, offset + 1⟩⟩

/-- A key that names a column before it is declared, in another case, and a column with a comma in
brackets. -/
theorem Statement.ofText_createTable_keyFirst :
    let sql := "CREATE TABLE T (PRIMARY KEY (A), a CHAR REFERENCES u(b, c))"
    ∃ list declarations, Lexer.tokens (Script.stripComments sql) = .ok list ∧
      Grammar.TableWritten "T" false declarations list.tokens ∧
      Grammar.declaredKeys declarations = ["A"] ∧
      ∀ limit, ∃ column,
        Statement.ofText limit (Script.stripComments sql) =
            .ok (.createTable ⟨"t", false, [column]⟩) ∧
          column.name = "a" ∧ column.type = "CHAR" ∧ column.primaryKey = true := by
  intro sql
  let key : List Token :=
    .onFirstLine 16 "" (.keyword .PRIMARY) "PRIMARY" :: .onFirstLine 24 " " (.keyword .KEY) "KEY" ::
      (.onFirstLine 28 " " (.mark .leftParen) "(" :: [.onFirstLine 29 "" (.identifier "A") "A"] ++
        [.onFirstLine 30 "" (.mark .rightParen) ")"])
  let column : List Token :=
    [.onFirstLine 33 " " (.identifier "a") "a", .onFirstLine 35 " " (.identifier "CHAR") "CHAR",
      .onFirstLine 40 " " (.identifier "REFERENCES") "REFERENCES",
      .onFirstLine 51 " " (.identifier "u") "u", .onFirstLine 52 "" (.mark .leftParen) "(",
      .onFirstLine 53 "" (.identifier "b") "b", .onFirstLine 54 "" (.mark .comma) ",",
      .onFirstLine 56 " " (.identifier "c") "c", .onFirstLine 57 "" (.mark .rightParen) ")"]
  let body := key ++ .onFirstLine 31 "" (.mark .comma) "," :: column
  have hread : (Lexer.tokens (Script.stripComments sql)).toOption.map (·.tokens) =
      some (.onFirstLine 0 "" (.keyword .CREATE) "CREATE" ::
        .onFirstLine 7 " " (.keyword .TABLE) "TABLE" ::
        ([] ++ .onFirstLine 13 " " (.identifier "T") "T" ::
          .onFirstLine 15 " " (.mark .leftParen) "(" ::
          (body ++ [.onFirstLine 58 "" (.mark .rightParen) ")"]))) := by
    decide +kernel
  obtain ⟨list, hlist, htokens⟩ := exists_ok_of_map hread
  have hkey : (Grammar.Declaration.key ["A"]).Written key :=
    .key rfl rfl rfl (.last rfl) rfl
  have hcolumn : (Grammar.Declaration.column "a" column).Written column :=
    .column rfl (by decide) ⟨by decide, by decide, by decide⟩
  have hbody : Grammar.BodyWritten [.key ["A"], .column "a" column] body :=
    .some (.more hkey rfl (.last hcolumn))
  have hwritten : Grammar.TableWritten "T" false [.key ["A"], .column "a" column] list.tokens := by
    rw [htokens]
    exact .intro rfl rfl (.absent (by decide)) rfl rfl hbody rfl
  have hsame : Text.sameName (Text.lower "a") "A" = true := by decide +kernel
  have hconsistent : Grammar.Consistent [.key ["A"], .column "a" column] :=
    ⟨List.cons_ne_nil _ _, List.pairwise_singleton _ _, List.forall_mem_singleton.2
      ⟨("a", column), List.mem_singleton_self _, hsame⟩⟩
  refine ⟨list, _, hlist, hwritten, rfl, fun limit => ?_⟩
  obtain ⟨hiff, hgives⟩ := ofText_createTable hlist hwritten limit
  obtain ⟨s, hs⟩ := hiff.2 hconsistent
  obtain ⟨columns, rfl, hcolumns⟩ := hgives s hs
  obtain ⟨made, _, hmade, hnone, rfl⟩ := List.forall₂_cons_left_iff.1 hcolumns
  obtain rfl := List.forall₂_nil_left_iff.1 hnone
  have hlower : Text.lower "T" = "t" := by decide
  rw [hlower] at hs
  refine ⟨made, hs, hmade.named.trans (by decide), (hmade.typed _ _ rfl rfl).trans (by decide), ?_⟩
  exact hmade.primaryKey.2 (.inr ⟨"A", List.mem_singleton_self _, hsame⟩)

end SqlEngine
