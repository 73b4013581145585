import SqlEngine.Engine
import SqlEngine.Proofs.Catalog.Result
import SqlEngine.Proofs.Grammar.AlikeQueries

/-!
# Statements of tokens that are alike

The tokens of a statement that is no query are read as the same statement, but for the texts of
conditions in no known form. Nothing that a statement does depends on those, so whatever tokens that
are alike are read as does the same to every catalog.
-/
namespace SqlEngine

/-- Both fail, or both succeed with things that are related. -/
inductive Together {ε δ α β : Type} (R : α → β → Prop) : Except ε α → Except δ β → Prop
  | failed (e : ε) (e' : δ) : Together R (.error e) (.error e')
  | done {a : α} {b : β} (h : R a b) : Together R (.ok a) (.ok b)

namespace Together

variable {ε δ α β γ κ : Type} {R : α → β → Prop} {S : γ → κ → Prop} {x : Except ε α}
  {y : Except δ β}

theorem refl {R : α → α → Prop} (h : ∀ a, R a a) (x : Except ε α) : Together R x x := by
  cases x with
  | error e => exact .failed e e
  | ok a => exact .done (h a)

theorem bind {f : α → Except ε γ} {g : β → Except δ κ} (h : Together R x y)
    (hfg : ∀ a b, R a b → Together S (f a) (g b)) : Together S (x >>= f) (y >>= g) := by
  cases h with
  | failed e e' => exact .failed e e'
  | done hab => exact hfg _ _ hab

theorem map {f : α → γ} {g : β → κ} (h : Together R x y) (hfg : ∀ a b, R a b → S (f a) (g b)) :
    Together S (x.map f) (y.map g) := by
  cases h with
  | failed e e' => exact .failed e e'
  | done hab => exact .done (hfg _ _ hab)

end Together

/-- The statements do the same to every catalog. -/
def Statement.Same (s t : Statement) : Prop :=
  ∀ semantics catalog, s.execute semantics catalog = t.execute semantics catalog

section Meaning

open Condition (SameClause)

variable {filter filter' having having' : Option Condition}

namespace Query

theorem filterRows_same (h : SameClause filter filter') (rows : List Row) :
    filterRows filter rows = filterRows filter' rows := by
  induction rows with
  | nil => rfl
  | cons row rest ih => rw [filterRows, filterRows, h, ih]

theorem projectGroups_same (s : Select) (h : SameClause s.having having) (items : List ListItem)
    (rows : List Row) :
    projectGroups s items rows = projectGroups { s with having } items rows := by
  have hgroup : projectGroup s items = projectGroup { s with having } items := by
    funext group
    rw [projectGroup, projectGroup, h]
  rw [projectGroups, projectGroups, hgroup]

theorem select_same (s : Select) (hfilter : SameClause s.filter filter)
    (hhaving : SameClause s.having having) (semantics : JoinSemantics) (catalog : Catalog) :
    select semantics catalog s = select semantics catalog { s with filter, having } := by
  have hrows : resultRows semantics catalog s =
      resultRows semantics catalog { s with filter, having } := by
    simp only [resultRows, filterRows_same hfilter, projectGroups_same s hhaving]
    rfl
  rw [select, select, hrows]

end Query

namespace Change

theorem update_same (s : Update) (h : SameClause s.filter filter) :
    update s = update { s with filter } := by
  have hrow : updatedRow? s.filter = updatedRow? filter := by
    funext assignments row
    rw [updatedRow?, updatedRow?, h]
  have hrows (table : Table) : updatedRows table s = updatedRows table { s with filter } := by
    rw [updatedRows, updatedRows, hrow]
  simp only [update, hrows]

theorem delete_same (s : Delete) (h : SameClause s.filter filter) :
    delete s = delete { s with filter } := by
  have hmarks : Condition.marks s.filter = Condition.marks filter := by
    funext rows
    rw [Condition.marks, Condition.marks, h]
  rw [delete, delete, hmarks]

end Change

end Meaning

namespace Grammar

open Condition (SameClause)

variable {ts us : List Token} {limit : Nat}

section Definitions

theorem Alike.definitionTokens (h : Alike ts us) (depth : Nat) (started : Bool) :
    Together Alike (Grammar.definitionTokens depth started ts)
      (Grammar.definitionTokens depth started us) := by
  induction h generalizing depth started with
  | nil =>
    rw [Grammar.definitionTokens]
    split
    · exact .done .nil
    · exact .failed _ _
  | @cons t u after after' ht hrest ih =>
    have hgo : ∀ depth, Together Alike ((Grammar.definitionTokens depth true after).map (t :: ·))
        ((Grammar.definitionTokens depth true after').map (u :: ·)) :=
      fun depth => (ih depth true).map fun _ _ => .cons ht
    rw [Grammar.definitionTokens, Grammar.definitionTokens, ht.kind]
    split
    · exact hgo _
    · split
      · exact .done .nil
      · exact hgo _
    · split
      · exact .done .nil
      · exact hgo _
    · split
      · exact .done .nil
      · exact .failed _ _
    · exact hgo _

theorem Alike.hasPair (h : Alike ts us) (first second : TokenKind) :
    Grammar.hasPair first second us = Grammar.hasPair first second ts := by
  induction h with
  | nil => rfl
  | cons ht hrest ih =>
    cases hrest with
    | nil => rfl
    | cons hu hrest => rw [Grammar.hasPair, Grammar.hasPair, ht.kind, hu.kind, ih]

theorem Alike.dropWhile_kind (h : Alike ts us) (kind : TokenKind) :
    Alike (ts.dropWhile fun t => t.kind ≠ kind) (us.dropWhile fun t => t.kind ≠ kind) := by
  induction h with
  | nil => exact .nil
  | cons ht hrest ih =>
    rw [List.dropWhile_cons, List.dropWhile_cons, ht.kind]
    split
    · exact ih
    · exact .cons ht hrest

theorem Alike.keyNames (h : Alike ts us) : Grammar.keyNames us = Grammar.keyNames ts := by
  have hnames : ∀ {ts us : List Token}, Alike ts us →
      us.filterMap Token.name? = ts.filterMap Token.name? := by
    intro ts us h
    induction h with
    | nil => rfl
    | cons ht hrest ih => rw [List.filterMap_cons, List.filterMap_cons, ht.name?, ih]
  exact hnames (h.dropWhile_kind _)

theorem Alike.typeWord (h : Alike ts us) : Grammar.typeWord us = Grammar.typeWord ts := by
  cases h with
  | nil => rfl
  | cons ht hrest =>
    cases hrest with
    | nil => rfl
    | cons hu hrest => rw [Grammar.typeWord, Grammar.typeWord, hu.kind, hu.text]

theorem Alike.definitionOf (h : Alike ts us) (next next' : Option Token) :
    Together Eq (Grammar.definitionOf ts next) (Grammar.definitionOf us next') := by
  cases h with
  | nil => exact .failed _ _
  | cons ht hrest =>
    have hwhole : Alike (_ :: _) (_ :: _) := .cons ht hrest
    rw [Grammar.definitionOf, Grammar.definitionOf, ht.kind, ht.name?, hwhole.keyNames,
      hwhole.typeWord, hwhole.hasPair, hwhole.hasPair]
    split
    any_goals exact .done rfl
    split
    · exact .failed _ _
    · exact .done rfl

theorem even_definition : Even limit Eq readDefinition readDefinition := by
  intro ts us hts _
  have htaken := hts.definitionTokens 0 false
  rw [readDefinition, readDefinition]
  generalize definitionTokens 0 false ts = x, definitionTokens 0 false us = y at htaken
  cases htaken with
  | failed e e' => exact .refused e e'
  | @done taken taken' htaken =>
    have hrest := hts.drop htaken.length_eq
    have hof := htaken.definitionOf (ts.drop taken.length).head? (us.drop taken'.length).head?
    dsimp only
    generalize definitionOf taken _ = x, definitionOf taken' _ = y at hof
    cases hof with
    | failed e e' => exact .refused e e'
    | done h => exact .read h hrest

theorem even_body (table : String) (body : Body) :
    Even limit Eq (readBody table body) (readBody table body) := by
  induction limit using Nat.strongRecOn generalizing body with
  | ind limit ih =>
    intro ts us hts hlimit
    rw [readBody, readBody]
    obtain ⟨e, e', he, he'⟩ | ⟨definition, _, ⟨rest, hr⟩, ⟨rest', hs⟩, hread, hread', rfl, hrest⟩ :=
      (even_definition ts us hts hlimit).cases
    · rw [he, he']
      exact .refused e e'
    · rw [hread, hread']
      dsimp only
      cases body.add table definition with
      | error e => exact .refused e e
      | ok body =>
        cases hrest with
        | nil => exact .read rfl .nil
        | @cons t u after after' ht hafter =>
          dsimp only
          rw [ht.kind]
          split
          · have hless : after.length < limit := Nat.lt_of_lt_of_le hr.length_le hlimit
            obtain ⟨e, e', he, he'⟩ | ⟨whole, _, r, s, hr, hs, rfl, hrs⟩ :=
              (ih after.length hless body after after' hafter (Nat.le_refl _)).cases
            · rw [he, he']
              exact .refused e e'
            · rw [hr, hs]
              exact .read rfl hrs
          · exact .read rfl (.cons ht hafter)

theorem even_settle {α : Type} (outcome : Except Refusal α) :
    Even limit Eq (settle outcome) (settle outcome) := by
  intro ts us hts _
  cases outcome with
  | error e => exact .refused e e
  | ok a => exact .read rfl hts

end Definitions

section Statements

theorem even_group : Even limit Eq readGroup readGroup := by
  have hclose : ∀ group : List Expr, Even limit Eq
      (do Reader.mark .rightParen; return group) (do Reader.mark .rightParen; return group) :=
    fun _ => (even_mark _).same fun _ => even_pure rfl
  refine (even_mark _).same fun _ => even_ahead.bind fun ts us hts => ?_
  rw [hts.startsWith]
  cases Grammar.startsWith (.mark .rightParen) ts with
  | true => exact Even.same (even_pure rfl) hclose
  | false => exact (exprEven limit).exprs.same hclose

theorem even_insert : Even limit Eq readInsert readInsert := by
  have hvalues : ∀ table columns, Even limit Eq
      (do Reader.keyword .VALUES
          return Insert.mk table columns (← Reader.separated (.mark .comma) readGroup))
      (do Reader.keyword .VALUES
          return Insert.mk table columns (← Reader.separated (.mark .comma) readGroup)) :=
    fun _ _ => (even_keyword _).same fun _ => (even_separated_same _ fun _ => even_group).same
      fun _ => even_pure rfl
  refine (even_keyword _).same fun _ => (even_keyword _).same fun _ => even_name.same fun table =>
    (even_optional _).same fun listed => ?_
  cases listed with
  | true =>
    exact (even_separated_same _ fun _ => even_name).same fun _ => (even_mark _).same fun _ =>
      Even.same (even_pure rfl) (hvalues table)
  | false => exact Even.same (even_pure rfl) (hvalues table)

theorem even_assignment : Even limit Eq readAssignment readAssignment :=
  even_name.same fun _ => (even_mark _).same fun _ => even_expr.same fun _ => even_pure rfl

theorem even_ifNotExists : Even limit Eq readIfNotExists readIfNotExists :=
  (even_optional _).same fun _ => .ite
    ((even_keyword _).same fun _ => (even_keyword _).same fun _ => even_pure rfl) (even_pure rfl)

theorem even_createTable : Even limit Eq readCreateTable readCreateTable :=
  (even_keyword _).same fun _ => (even_keyword _).same fun _ => even_ifNotExists.same fun _ =>
    even_name.same fun _ => (even_mark _).same fun _ => (even_body _ _).same fun _ =>
    (even_mark _).same fun _ => (even_settle _).same fun _ =>
    .ite (even_refuse _ _) (even_pure rfl)

theorem even_optionalName : Even limit Eq Reader.optionalName Reader.optionalName := by
  refine even_ahead.bind fun ts us hts => ?_
  rw [hts.startsName]
  exact .ite (even_name.same fun _ => even_pure rfl) (even_pure rfl)

theorem even_skipStatement : Even limit Eq skipStatement skipStatement :=
  fun _ _ hts _ => .read rfl (hts.dropWhile_kind _)

theorem even_createIndex : Even limit Eq readCreateIndex readCreateIndex :=
  (even_keyword _).same fun _ => (even_optional _).same fun _ => (even_keyword _).same fun _ =>
    even_ifNotExists.same fun _ => even_optionalName.same fun _ =>
    (even_optionalClause _ even_name).same fun _ => even_skipStatement.same fun _ => even_pure rfl

theorem even_dropTable : Even limit Eq readDropTable readDropTable := by
  have hname : ∀ ifExists, Even limit Eq (do return DropTable.mk (← Reader.name) ifExists)
      (do return DropTable.mk (← Reader.name) ifExists) :=
    fun _ => even_name.same fun _ => even_pure rfl
  refine (even_keyword _).same fun _ => (even_keyword _).same fun _ =>
    (even_optional _).same fun isThere => ?_
  cases isThere with
  | true => exact (even_keyword _).same fun _ => Even.same (even_pure rfl) hname
  | false => exact Even.same (even_pure rfl) hname

theorem Alike.atEnd (h : Alike ts us) : Grammar.atEnd us = Grammar.atEnd ts := by
  cases h with
  | nil => rfl
  | cons ht hrest => rw [Grammar.atEnd, Grammar.atEnd, ht.kind]

theorem even_alterTable : Even limit Eq readAlterTable readAlterTable := by
  refine (even_keyword _).same fun _ => (even_keyword _).same fun _ => even_name.same fun _ =>
    even_ahead.bind fun ts us hts => ?_
  rw [hts.atEnd]
  refine .ite (even_refuse _ _) ((even_optional _).same fun _ => .ite ?_ (even_settle _))
  refine (even_optional _).same fun _ => even_definition.same fun definition => ?_
  cases definition with
  | column column => exact even_pure rfl
  | primaryKey names => exact even_settle _
  | otherConstraint => exact even_settle _

theorem even_describe : Even limit Eq readDescribe readDescribe := by
  have hskip : Even limit Eq skipOne skipOne := fun _ _ hts _ => .read rfl (hts.drop rfl)
  exact hskip.same fun _ => even_name

/-- A statement of a kind that has no condition is read as the same one. -/
theorem Even.statement {α : Type} {p : Reader α} {make : α → Statement} (h : Even limit Eq p p) :
    Even limit Statement.Same (do return make (← p)) (do return make (← p)) :=
  h.same fun _ => even_pure fun _ _ => rfl

/-- The queries are the same but for their conditions, and those hold in the same scopes. -/
theorem even_select :
    Even limit
      (fun s t => ∃ filter having, SameClause s.filter filter ∧ SameClause s.having having ∧
        t = { s with filter, having })
      readSelect readSelect :=
  (even_keyword _).same fun _ => (even_optional _).same fun _ =>
    (even_separated_same _ fun _ => even_item).same fun _ => (even_keyword _).same fun _ =>
    even_table.same fun _ => even_joins.same fun _ =>
    (even_conditionClause _).bind fun _ filter hfilter =>
    (even_optionalClause _ ((even_keyword _).same fun _ =>
      even_separated_same _ fun _ => even_columnRef)).same fun _ =>
    (even_conditionClause _).bind fun _ having hhaving =>
    (even_optionalClause _ ((even_keyword _).same fun _ =>
      even_separated_same _ fun _ => even_orderItem)).same fun _ =>
    (even_optionalClause _ even_count).same fun _ =>
    (even_optionalClause _ even_count).same fun _ =>
    even_pure ⟨filter, having, hfilter, hhaving, rfl⟩

theorem even_update :
    Even limit (fun s t => ∃ filter, SameClause s.filter filter ∧ t = { s with filter })
      readUpdate readUpdate :=
  (even_keyword _).same fun _ => even_name.same fun _ => (even_keyword _).same fun _ =>
    (even_separated_same _ fun _ => even_assignment).same fun _ =>
    (even_conditionClause _).bind fun _ filter hfilter => even_pure ⟨filter, hfilter, rfl⟩

theorem even_delete :
    Even limit (fun s t => ∃ filter, SameClause s.filter filter ∧ t = { s with filter })
      readDelete readDelete :=
  (even_keyword _).same fun _ => (even_keyword _).same fun _ => even_name.same fun _ =>
    (even_conditionClause _).bind fun _ filter hfilter => even_pure ⟨filter, hfilter, rfl⟩

theorem even_kind (kind : StatementKind) :
    Even limit Statement.Same (readKind kind) (readKind kind) := by
  cases kind with
  | select =>
    refine even_select.bind ?_
    rintro s _ ⟨filter, having, hfilter, hhaving, rfl⟩
    refine even_pure fun semantics catalog => ?_
    rw [Statement.execute_select, Statement.execute_select, Query.select_same s hfilter hhaving]
  | insert => exact even_insert.statement
  | update =>
    refine even_update.bind ?_
    rintro s _ ⟨filter, hfilter, rfl⟩
    refine even_pure fun semantics catalog => ?_
    rw [Statement.execute_update, Statement.execute_update, Change.update_same s hfilter]
  | delete =>
    refine even_delete.bind ?_
    rintro s _ ⟨filter, hfilter, rfl⟩
    refine even_pure fun semantics catalog => ?_
    rw [Statement.execute_delete, Statement.execute_delete, Change.delete_same s hfilter]
  | createTable => exact even_createTable.statement
  | createIndex => exact even_createIndex.statement
  | dropTable => exact even_dropTable.statement
  | alterTable => exact even_alterTable.statement
  | showTables =>
    have hwords : Even limit Eq readShowTables readShowTables :=
      (even_keyword _).same fun _ => even_keyword _
    exact hwords.statement
  | describe => exact even_describe.statement

theorem even_whole (kind : StatementKind) :
    Even limit Statement.Same (readWhole kind) (readWhole kind) := by
  refine (even_kind kind).bind fun s t hst => (even_optional _).same fun _ => ?_
  refine even_ahead.bind fun ts us hts => ?_
  cases hts with
  | nil => exact even_pure hst
  | cons => exact even_refuse _ _

end Statements

end Grammar

theorem Statement.ofTokens_alike {list list' : TokenList}
    (h : Grammar.Alike list.tokens list'.tokens) (kind : StatementKind) :
    Together Same (ofTokens kind list) (ofTokens kind list') := by
  have hread := Grammar.even_whole kind list.tokens list'.tokens h (Nat.le_refl _)
  rw [ofTokens, ofTokens]
  obtain ⟨e, e', he, he'⟩ | ⟨s, t, r, r', hr, hr', hst, -⟩ := hread.cases
  · rw [he, he']
    exact .failed _ _
  · rw [hr, hr']
    exact .done hst

end SqlEngine
