import SqlEngine.Grammar.Statement
import SqlEngine.Proofs.Catalog.Change
import SqlEngine.Proofs.Grammar.Reads

/-!
# Columns of a statement that was read

Reading CREATE TABLE gives at least one column, and every column gets its name in small letters.
Marking columns as primary keys afterwards changes neither. The column of an ALTER TABLE gets its
name in small letters too.
-/
namespace SqlEngine

/-- The column that a statement adds to a table has its name in small letters. -/
def Statement.AddedSmall : Statement → Prop
  | addColumn s => Text.lower s.column.name = s.column.name
  | _ => True

namespace Grammar

/-- The names of all columns are in small letters. -/
def NamesSmall (columns : List Column) : Prop :=
  ∀ column ∈ columns, Text.lower column.name = column.name

theorem definitionOf_small {tokens : List Token} {next : Option Token} {column : Column}
    (h : definitionOf tokens next = .ok (.column column)) :
    Text.lower column.name = column.name := by
  unfold definitionOf at h
  split at h
  · cases h
  · split at h
    · cases h
    · cases h
    · cases h
    · cases h
    · cases h
    · split at h
      · cases h
      · cases h
        exact Text.lower_lower _

theorem readDefinition_small {ts : List Token} {column : Column} {r : Rest ts}
    (h : readDefinition ts = .ok (.column column, r)) : Text.lower column.name = column.name := by
  rw [readDefinition] at h
  split at h
  · cases h
  · dsimp only at h
    split at h
    · cases h
    · next hdefinition =>
      cases h
      exact definitionOf_small hdefinition

theorem add_small {table : String} {body larger : Body} {definition : Definition}
    (small : NamesSmall body.columns)
    (hdefinition : ∀ column, definition = .column column → Text.lower column.name = column.name)
    (h : body.add table definition = .ok larger) : NamesSmall larger.columns := by
  cases definition with
  | column column =>
    simp only [Body.add] at h
    split at h
    · cases h
    · cases h
      intro other hother
      rcases List.mem_append.1 hother with old | new
      · exact small other old
      · rw [List.mem_singleton.1 new]
        exact hdefinition column rfl
  | primaryKey names =>
    cases h
    exact small
  | otherConstraint =>
    cases h
    exact small

theorem readBody_small {table : String} {body whole : Body} {ts : List Token} {r : Rest ts}
    (small : NamesSmall body.columns) (h : readBody table body ts = .ok (whole, r)) :
    NamesSmall whole.columns := by
  fun_induction readBody table body ts generalizing whole with
  | case1 | case2 | case4 => cases h
  | case3 body ts definition r hread body' hadd hr =>
    cases h
    exact add_small small (fun column heq => readDefinition_small (heq ▸ hread)) hadd
  | case5 body ts definition r hread body' hadd t after hr hcomma whole' s hrest ih =>
    cases h
    exact ih (add_small small (fun column heq => readDefinition_small (heq ▸ hread)) hadd) hrest
  | case6 body ts definition r hread body' hadd t after hr hcomma =>
    cases h
    exact add_small small (fun column heq => readDefinition_small (heq ▸ hread)) hadd

theorem map_name_markKey {name : String} {columns marked : List Column}
    (h : markKey name columns = .ok marked) : marked.map (·.name) = columns.map (·.name) := by
  induction columns generalizing marked with
  | nil => cases h
  | cons column rest ih =>
    rw [markKey] at h
    split at h
    · cases h
      rfl
    · cases hrest : markKey name rest with
      | error e =>
        rw [hrest] at h
        cases h
      | ok tail =>
        rw [hrest] at h
        cases h
        rw [List.map_cons, List.map_cons, ih hrest]

/-- Marking primary keys keeps the names of the columns. -/
theorem map_name_markKeys {names : List String} {columns marked : List Column}
    (h : markKeys columns names = .ok marked) : marked.map (·.name) = columns.map (·.name) := by
  induction names generalizing columns with
  | nil =>
    cases h
    rfl
  | cons name rest ih =>
    obtain ⟨first, hfirst, h⟩ := bind_eq_ok.1 h
    exact (ih h).trans (map_name_markKey hfirst)

section Keys

variable {columns marked : List Column} {name : String}

/-- What is made a primary key is there, and what fails to be made one is not. -/
theorem markKey_cases (name : String) (columns : List Column) :
    (∃ marked, markKey name columns = .ok marked ∧
        ∃ own ∈ columns.map (·.name), Text.sameName own name = true) ∨
      (markKey name columns = .error (.schema (.unknownColumn name)) ∧
        ∀ own ∈ columns.map (·.name), Text.sameName own name = false) := by
  induction columns with
  | nil => exact .inr ⟨rfl, List.forall_mem_nil _⟩
  | cons first rest ih =>
    rw [markKey, List.map_cons]
    by_cases hfirst : Text.sameName first.name name = true
    · rw [if_pos hfirst]
      exact .inl ⟨_, rfl, first.name, List.mem_cons_self, hfirst⟩
    · rw [if_neg hfirst]
      rcases ih with ⟨marked, hmarked, own, hown, hsame⟩ | ⟨hmissing, hrest⟩
      · exact .inl ⟨first :: marked, by rw [hmarked]; rfl, own, List.mem_cons_of_mem _ hown, hsame⟩
      · refine .inr ⟨by rw [hmissing]; rfl, List.forall_mem_cons.2 ⟨?_, hrest⟩⟩
        exact Bool.eq_false_iff.2 hfirst

theorem markKeys_cons_of_missing {e : Refusal} (h : markKey name columns = .error e)
    (names : List String) : markKeys columns (name :: names) = .error e := by
  rw [markKeys, h]
  rfl

/-- A name that is there is not missed among the primary keys. -/
theorem markKeys_ne_unknown (h : ∃ own ∈ columns.map (·.name), Text.sameName own name = true)
    (names : List String) : markKeys columns names ≠ .error (.schema (.unknownColumn name)) := by
  induction names generalizing columns with
  | nil => nofun
  | cons first rest ih =>
    rcases markKey_cases first columns with ⟨marked, hmarked, -⟩ | ⟨hmissing, hall⟩
    · have hstep : markKeys columns (first :: rest) = markKeys marked rest := bind_of_ok hmarked _
      rw [hstep]
      apply ih
      rw [map_name_markKey hmarked]
      exact h
    · rw [markKeys_cons_of_missing hmissing]
      intro heq
      obtain rfl : first = name :=
        SchemaError.unknownColumn.inj (Refusal.schema.inj (Except.error.inj heq))
      obtain ⟨own, hown, hsame⟩ := h
      rw [hall own hown] at hsame
      cases hsame

/-- Keys can be marked exactly when each of them is the name of a column. -/
theorem exists_markKeys_iff {names : List String} :
    (∃ marked, markKeys columns names = .ok marked) ↔
      ∀ name ∈ names, ∃ own ∈ columns.map (·.name), Text.sameName own name = true := by
  induction names generalizing columns with
  | nil => exact ⟨fun _ => List.forall_mem_nil _, fun _ => ⟨columns, rfl⟩⟩
  | cons first rest ih =>
    rw [List.forall_mem_cons]
    rcases markKey_cases first columns with ⟨marked, hmarked, hthere⟩ | ⟨hmissing, hall⟩
    · have hstep : markKeys columns (first :: rest) = markKeys marked rest := bind_of_ok hmarked _
      rw [hstep, ih, map_name_markKey hmarked]
      exact (and_iff_right hthere).symm
    · rw [markKeys_cons_of_missing hmissing]
      constructor
      · rintro ⟨marked, ⟨⟩⟩
      · rintro ⟨⟨own, hown, hsame⟩, -⟩
        rw [hall own hown] at hsame
        cases hsame

/-- Of columns with distinct names the one with the given name becomes a primary key, and no other
one does. -/
theorem markKey_eq_map (distinct : Row.DistinctNames (columns.map (·.name)))
    (h : markKey name columns = .ok marked) : marked = columns.map fun column =>
      { column with primaryKey := column.primaryKey || Text.sameName column.name name } := by
  induction columns generalizing marked with
  | nil => cases h
  | cons first rest ih =>
    obtain ⟨hdiffer, hrest⟩ := List.pairwise_cons.1 distinct
    rw [markKey] at h
    by_cases hfirst : Text.sameName first.name name = true
    · rw [if_pos hfirst] at h
      cases h
      have hothers : ∀ column ∈ rest, Text.sameName column.name name = false := by
        intro column hcolumn
        rw [← hdiffer column.name (List.mem_map_of_mem hcolumn), Text.sameName_comm column.name,
          ← Text.sameName_congr hfirst]
      rw [List.map_cons, hfirst, Bool.or_true]
      refine congrArg _ ((List.map_id rest).symm.trans ?_)
      refine List.map_congr_left fun column hcolumn => ?_
      rw [hothers column hcolumn, Bool.or_false]
      rfl
    · rw [if_neg hfirst] at h
      cases htail : markKey name rest with
      | error e =>
        rw [htail] at h
        cases h
      | ok tail =>
        rw [htail] at h
        cases h
        rw [List.map_cons, ← ih hrest htail, Bool.eq_false_iff.2 hfirst, Bool.or_false]

/-- Of columns with distinct names those that are named become primary keys. -/
theorem markKeys_eq_map {names : List String}
    (distinct : Row.DistinctNames (columns.map (·.name)))
    (h : markKeys columns names = .ok marked) : marked = columns.map fun column =>
      { column with
        primaryKey := column.primaryKey || names.any (Text.sameName column.name) } := by
  induction names generalizing columns with
  | nil =>
    cases h
    simp
  | cons name rest ih =>
    obtain ⟨first, hfirst, h⟩ := bind_eq_ok.1 h
    have hnames := map_name_markKey hfirst
    rw [ih (hnames ▸ distinct) h, markKey_eq_map distinct hfirst, List.map_map]
    simp only [Function.comp_def, List.any_cons, Bool.or_assoc]

end Keys

theorem namesSmall_of_map_eq {columns others : List Column} (small : NamesSmall columns)
    (h : others.map (·.name) = columns.map (·.name)) : NamesSmall others := by
  intro column hcolumn
  have hmem : column.name ∈ others.map (·.name) := List.mem_map_of_mem hcolumn
  rw [h] at hmem
  obtain ⟨old, hold, heq⟩ := List.mem_map.1 hmem
  rw [← heq]
  exact small old hold

theorem reads_settle {α : Type} {outcome : Except Refusal α} {ts rest : List Token} {a : α} :
    Reads (settle outcome) ts a rest ↔ outcome = .ok a ∧ rest = ts := by
  constructor
  · rintro ⟨r, hr, rfl⟩
    unfold settle at hr
    split at hr
    · cases hr
    · cases hr
      exact ⟨rfl, rfl⟩
  · rintro ⟨rfl, rfl⟩
    exact ⟨_, rfl, rfl⟩

theorem readCreateTable_columns {ts rest : List Token} {s : CreateTable}
    (h : Reads readCreateTable ts s rest) : s.columns ≠ [] ∧ NamesSmall s.columns := by
  obtain ⟨_, _, -, h⟩ := reads_bind.1 h
  obtain ⟨_, _, -, h⟩ := reads_bind.1 h
  obtain ⟨_, _, -, h⟩ := reads_bind.1 h
  obtain ⟨table, _, -, h⟩ := reads_bind.1 h
  obtain ⟨_, _, -, h⟩ := reads_bind.1 h
  obtain ⟨body, _, ⟨_, hbody, -⟩, h⟩ := reads_bind.1 h
  obtain ⟨_, _, -, h⟩ := reads_bind.1 h
  obtain ⟨columns, _, hsettle, h⟩ := reads_bind.1 h
  split at h
  · obtain ⟨_, hrefuse, -⟩ := h
    cases hrefuse
  · next hnonempty =>
    obtain ⟨rfl, -⟩ := reads_pure.1 h
    constructor
    · simpa using hnonempty
    · have hnone : NamesSmall (⟨[], []⟩ : Body).columns := by
        intro column hcolumn
        cases hcolumn
      exact namesSmall_of_map_eq (readBody_small hnone hbody)
        (map_name_markKeys (reads_settle.1 hsettle).1)

theorem readKind_columnsProper {kind : StatementKind} {ts rest : List Token} {s : Statement}
    (h : Reads (readKind kind) ts s rest) : s.ColumnsProper := by
  cases kind with
  | createTable =>
    obtain ⟨create, _, hcreate, h⟩ := reads_bind.1 h
    obtain ⟨rfl, -⟩ := reads_pure.1 h
    exact readCreateTable_columns hcreate
  | createIndex | insert | select | update | delete | dropTable | showTables | describe
  | alterTable =>
    obtain ⟨_, _, -, h⟩ := reads_bind.1 h
    obtain ⟨rfl, -⟩ := reads_pure.1 h
    trivial

theorem readAlterTable_small {ts rest : List Token} {s : AddColumn}
    (h : Reads readAlterTable ts s rest) : Text.lower s.column.name = s.column.name := by
  have hrefused : ∀ {e : Refusal} {ts rest : List Token} {s : AddColumn},
      ¬ Reads (settle (.error e)) ts s rest := fun h => by cases (reads_settle.1 h).1
  obtain ⟨_, _, -, h⟩ := reads_bind.1 h
  obtain ⟨_, _, -, h⟩ := reads_bind.1 h
  obtain ⟨table, _, -, h⟩ := reads_bind.1 h
  obtain ⟨ahead, _, -, h⟩ := reads_bind.1 h
  split at h
  · obtain ⟨_, hrefuse, -⟩ := h
    cases hrefuse
  · obtain ⟨added, _, -, h⟩ := reads_bind.1 h
    split at h
    · obtain ⟨_, _, -, h⟩ := reads_bind.1 h
      obtain ⟨definition, _, ⟨_, hdefinition, -⟩, h⟩ := reads_bind.1 h
      cases definition with
      | column column =>
        obtain ⟨rfl, -⟩ := reads_pure.1 h
        exact readDefinition_small hdefinition
      | primaryKey names => exact (hrefused h).elim
      | otherConstraint => exact (hrefused h).elim
    · exact (hrefused h).elim

theorem readKind_addedSmall {kind : StatementKind} {ts rest : List Token} {s : Statement}
    (h : Reads (readKind kind) ts s rest) : s.AddedSmall := by
  cases kind with
  | alterTable =>
    obtain ⟨_, _, halter, h⟩ := reads_bind.1 h
    obtain ⟨rfl, -⟩ := reads_pure.1 h
    exact readAlterTable_small halter
  | createTable | createIndex | insert | select | update | delete | dropTable | showTables
  | describe =>
    obtain ⟨_, _, -, h⟩ := reads_bind.1 h
    obtain ⟨rfl, -⟩ := reads_pure.1 h
    trivial

/-- What is read to the end of the text is read as a statement of its kind. -/
theorem exists_readKind_of_readWhole {kind : StatementKind} {ts rest : List Token} {s : Statement}
    (h : Reads (readWhole kind) ts s rest) : ∃ left, Reads (readKind kind) ts s left := by
  obtain ⟨statement, left, hkind, h⟩ := reads_bind.1 h
  obtain ⟨_, _, -, h⟩ := reads_bind.1 h
  obtain ⟨ahead, _, -, h⟩ := reads_bind.1 h
  cases ahead with
  | nil =>
    obtain ⟨rfl, -⟩ := reads_pure.1 h
    exact ⟨left, hkind⟩
  | cons t ts =>
    obtain ⟨_, hrefuse, -⟩ := h
    cases hrefuse

end Grammar

/-- A statement that was read from a text was read from its tokens. -/
theorem Statement.exists_readKind_of_ofText {limit : Nat} {sql : String} {s : Statement}
    (h : Statement.ofText limit sql = .ok s) :
    ∃ kind list rest, Lexer.tokens sql = .ok list ∧
      Grammar.Reads (Grammar.readKind kind) list.tokens s rest := by
  rw [ofText] at h
  split at h
  · cases h
  · next kind _ =>
    obtain ⟨list, hlist, h⟩ := bind_eq_ok.1 h
    rw [TokenList.ofText] at hlist
    split at hlist
    · cases hlist
    · next htokens =>
      cases hlist
      rw [ofTokens] at h
      split at h
      · cases h
      · next whole r hwhole =>
        cases h
        obtain ⟨left, hkind⟩ := Grammar.exists_readKind_of_readWhole ⟨r, hwhole, rfl⟩
        exact ⟨kind, list, left, htokens, hkind⟩

/-- The columns of every statement that was read from a text are proper. -/
theorem Statement.ofText_columnsProper {limit : Nat} {sql : String} {s : Statement}
    (h : Statement.ofText limit sql = .ok s) : s.ColumnsProper := by
  obtain ⟨kind, list, rest, -, hread⟩ := exists_readKind_of_ofText h
  exact Grammar.readKind_columnsProper hread

/-- The column of every ALTER TABLE that was read from a text has its name in small letters. -/
theorem Statement.ofText_addedSmall {limit : Nat} {sql : String} {s : Statement}
    (h : Statement.ofText limit sql = .ok s) : s.AddedSmall := by
  obtain ⟨kind, list, rest, -, hread⟩ := exists_readKind_of_ofText h
  exact Grammar.readKind_addedSmall hread

end SqlEngine
