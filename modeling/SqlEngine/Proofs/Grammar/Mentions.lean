import SqlEngine.Grammar.Statement
import SqlEngine.Proofs.Expr.Without
import SqlEngine.Proofs.Grammar.Forms
import SqlEngine.Proofs.Query.Without

/-!
# Columns are read from names

Every column in what is read from tokens is named by one of them. Tokens of which none is the name
of a column are therefore read as expressions, conditions and queries over other columns. Names of
tables and other names for items are tokens as well, so nothing is said of them here.
-/
namespace SqlEngine.Grammar

open ColumnRef

/-- No token is the name of the column. -/
def Unmentioned (column : String) (ts : List Token) : Prop :=
  Named (fun name => Text.isOther column name = true) ts

variable {column : String} {ts : List Token}

theorem columnRefs_negated (e : Expr) : (negated e).columnRefs = e.columnRefs := by
  rw [negated.eq_def]
  split <;> rfl

theorem allOther_column {ref : ColumnRef} (h : Text.isOther column ref.name = true) :
    AllOther column (Expr.column ref).columnRefs := by
  rintro other hother
  cases List.mem_singleton.1 hother
  exact h

theorem allOther_allColumnRefs {es : List Expr} (h : ∀ e ∈ es, AllOther column e.columnRefs) :
    AllOther column (Expr.allColumnRefs es) := by
  induction es with
  | nil => exact List.forall_mem_nil _
  | cons e rest ih =>
    obtain ⟨he, hrest⟩ := List.forall_mem_cons.1 h
    exact allOther_append.2 ⟨he, ih hrest⟩

theorem heldByForms_allOther (column : String) :
    HeldByForms (fun name => Text.isOther column name = true)
      fun e => AllOther column e.columnRefs where
  number _ := List.forall_mem_nil _
  text _ := List.forall_mem_nil _
  null _ := List.forall_mem_nil _
  column _ hname := allOther_column hname
  qualified _ _ _ hname := allOther_column hname
  negated _ he := by
    rw [columnRefs_negated]
    exact he
  binary _ hleft hright := allOther_append.2 ⟨hleft, hright⟩
  call _ _ _ hes _ := by
    rcases hes with ⟨-, rfl⟩ | hes
    · exact List.forall_mem_nil _
    · exact allOther_allColumnRefs hes

/-- From tokens that do not mention the column, the reader reads only what has the property. -/
def Yields {α : Type} (column : String) (p : Reader α) (P : α → Prop) : Prop :=
  ∀ (ts : List Token) (a : α) (r : Rest ts), Unmentioned column ts → p ts = .ok (a, r) → P a

namespace Yields

variable {α β : Type} {p : Reader α} {f : α → Reader β} {P : α → Prop} {Q : β → Prop}

theorem pure {a : α} (ha : P a) : Yields column (pure a) P := by
  intro ts b r _ h
  cases h
  exact ha

/-- Of what a reader reads, something is always true. -/
theorem of_any (p : Reader α) : Yields column p fun _ => True := fun _ _ _ _ _ => trivial

theorem bind (hp : Yields column p P) (hf : ∀ a, P a → Yields column (f a) Q) :
    Yields column (p >>= f) Q := by
  intro ts b rest hts h
  obtain ⟨a, _, ⟨r, hr, rfl⟩, ⟨s, hs, -⟩⟩ := reads_bind.1 ⟨rest, h, rfl⟩
  exact hf a (hp ts a r hts hr) r.1 b s (hts.rest r) hs

/-- What is read first does not matter. -/
theorem skip (p : Reader α) (hf : ∀ a, Yields column (f a) Q) : Yields column (p >>= f) Q :=
  (of_any p).bind fun a _ => hf a

theorem ite {c : Prop} [Decidable c] {q : Reader α} (hp : Yields column p P)
    (hq : Yields column q P) : Yields column (if c then p else q) P := by
  split
  · exact hp
  · exact hq

theorem refuse (what : Complaint) : Yields column (refuse what) P := by
  intro ts a r _ h
  cases h

theorem furtherItems (separator : TokenKind) (hp : Yields column p P) :
    Yields column (Reader.furtherItems separator p) fun as => ∀ a ∈ as, P a
  | [], _, _, _, h => by
    rw [Reader.furtherItems] at h
    cases h
    exact List.forall_mem_nil P
  | t :: after, _, _, hts, h => by
    rw [Reader.furtherItems] at h
    split at h
    · split at h
      · cases h
      · next a r ha =>
        split at h
        · cases h
        · next as s has =>
          cases h
          have hle := r.length_le
          have hfirst := hp after a r hts.tail ha
          have hmore := furtherItems separator hp r.1 as s (hts.tail.rest r) has
          exact List.forall_mem_cons.2 ⟨hfirst, hmore⟩
    · cases h
      exact List.forall_mem_nil P
termination_by ts => ts.length

theorem separated (separator : TokenKind) (hp : Yields column p P) :
    Yields column (Reader.separated separator p) fun as => ∀ a ∈ as, P a :=
  hp.bind fun _ ha => (hp.furtherItems separator).bind fun _ has =>
    .pure (List.forall_mem_cons.2 ⟨ha, has⟩)

theorem optionalClause (word : Keyword) (hp : Yields column p P) :
    Yields column (optionalClause word p) fun a? => ∀ a ∈ a?, P a :=
  .skip _ fun _ => .ite (hp.bind fun _ ha => .pure (by rintro _ ⟨⟩; exact ha)) (.pure nofun)

end Yields

/-- An expression is read as one over other columns. -/
theorem yields_expr : Yields column readExpr fun e => AllOther column e.columnRefs :=
  fun ts _ _ hts h => (heldByForms_allOther column).of_readExprFrom 0 ts hts h

theorem yields_exprs : Yields column readExprs fun es => AllOther column (Expr.allColumnRefs es) :=
  fun ts _ _ hts h => allOther_allColumnRefs ((heldByForms_allOther column).of_readExprs ts hts h)

theorem yields_identifier :
    Yields column Reader.identifier fun name => Text.isOther column name = true :=
  fun _ _ _ hts h => hts.identifier h

theorem yields_columnRef :
    Yields column readColumnRef fun ref => Text.isOther column ref.name = true := by
  refine yields_identifier.bind fun first hfirst => .skip _ fun qualified => .ite ?_ ?_
  · exact yields_identifier.bind fun _ hname => .pure hname
  · exact .pure hfirst

section Condition

variable {subject : Expr} (hsubject : AllOther column subject.columnRefs)
include hsubject

theorem yields_between (negated : Bool) :
    Yields column (readBetween subject negated) fun c => AllOther column c.columnRefs := by
  refine yields_expr.bind fun low hlow => .skip _ fun _ => yields_expr.bind fun high hhigh => ?_
  exact .pure (allOther_append.2 ⟨hsubject, allOther_append.2 ⟨hlow, hhigh⟩⟩)

theorem yields_oneOf (negated : Bool) :
    Yields column (readOneOf subject negated) fun c => AllOther column c.columnRefs := by
  refine .skip _ fun _ => yields_exprs.bind fun items hitems => .skip _ fun _ => ?_
  exact .pure (allOther_append.2 ⟨hsubject, hitems⟩)

theorem yields_like (negated : Bool) :
    Yields column (readLike subject negated) fun c => AllOther column c.columnRefs :=
  yields_expr.bind fun _ hpattern => .pure (allOther_append.2 ⟨hsubject, hpattern⟩)

theorem yields_form (negated : Bool) :
    Yields column (readForm subject negated) fun c => AllOther column c.columnRefs := by
  refine .skip _ fun _ => .ite (yields_between hsubject negated) ?_
  refine .skip _ fun _ => .ite (yields_oneOf hsubject negated) ?_
  refine .skip _ fun _ => .ite (yields_like hsubject negated) (.ite (.refuse _) ?_)
  refine .skip _ fun op => yields_expr.bind fun right hright => ?_
  exact .pure (allOther_append.2 ⟨hsubject, hright⟩)

end Condition

theorem yields_atom : Yields column readAtom fun c => AllOther column c.columnRefs := by
  refine yields_expr.bind fun subject hsubject => .skip _ fun _ => .ite ?_ ?_
  · exact .skip _ fun negated => .skip _ fun _ => .pure hsubject
  · exact .skip _ fun negated => yields_form hsubject negated

theorem yields_unrecognized :
    Yields column readUnrecognized fun c => AllOther column c.columnRefs := by
  intro ts c r _ h
  cases h
  exact List.forall_mem_nil _

theorem yields_simple : Yields column readSimple fun c => AllOther column c.columnRefs := by
  intro ts c r hts h
  rw [readSimple] at h
  split at h
  · exact yields_unrecognized ts c r hts h
  · next found s hfound =>
    split at h
    · cases h
      exact yields_atom ts c r hts hfound
    · exact yields_unrecognized ts c r hts h

theorem allOther_disjunctionOf {first : Condition} {rest : List Condition}
    (hfirst : AllOther column first.columnRefs)
    (hrest : AllOther column (Condition.allColumnRefs rest)) :
    AllOther column (disjunctionOf first rest).columnRefs := by
  cases rest with
  | nil => exact hfirst
  | cons => exact allOther_append.2 ⟨hfirst, hrest⟩

theorem allOther_conjunctionOf {first : Condition} {rest : List Condition}
    (hfirst : AllOther column first.columnRefs)
    (hrest : AllOther column (Condition.allColumnRefs rest)) :
    AllOther column (conjunctionOf first rest).columnRefs := by
  cases rest with
  | nil => exact hfirst
  | cons => exact allOther_append.2 ⟨hfirst, hrest⟩

mutual

/-- A condition is read as one over other columns. -/
theorem allOther_of_readCondition (ts : List Token) {c : Condition} {rest : Rest ts}
    (hts : Unmentioned column ts) (h : readCondition ts = .ok (c, rest)) :
    AllOther column c.columnRefs := by
  rw [readCondition] at h
  split at h
  · cases h
  · next first r hfirst =>
    split at h
    · cases h
    · next others s hothers =>
      cases h
      have hle := r.length_le
      exact allOther_disjunctionOf (allOther_of_readConjunction ts hts hfirst)
        (allOther_of_readBranches r.1 (hts.rest r) hothers)
termination_by 5 * ts.length + 4

theorem allOther_of_readBranches :
    (ts : List Token) → {cs : List Condition} → {rest : Rest ts} → Unmentioned column ts →
      readBranches ts = .ok (cs, rest) → AllOther column (Condition.allColumnRefs cs)
  | [], _, _, _, h => by
    rw [readBranches] at h
    cases h
    exact List.forall_mem_nil _
  | t :: after, _, _, hts, h => by
    rw [readBranches] at h
    split at h
    · split at h
      · cases h
      · next first r hfirst =>
        split at h
        · cases h
        · next others s hothers =>
          cases h
          have hle := r.length_le
          exact allOther_append.2 ⟨allOther_of_readConjunction after hts.tail hfirst,
            allOther_of_readBranches r.1 (hts.tail.rest r) hothers⟩
    · cases h
      exact List.forall_mem_nil _
termination_by ts => 5 * ts.length

theorem allOther_of_readConjunction (ts : List Token) {c : Condition} {rest : Rest ts}
    (hts : Unmentioned column ts) (h : readConjunction ts = .ok (c, rest)) :
    AllOther column c.columnRefs := by
  rw [readConjunction] at h
  split at h
  · cases h
  · next first r hfirst =>
    split at h
    · cases h
    · next others s hothers =>
      cases h
      have hle := r.length_le
      exact allOther_conjunctionOf (allOther_of_readNegation ts hts hfirst)
        (allOther_of_readParts r.1 (hts.rest r) hothers)
termination_by 5 * ts.length + 3

theorem allOther_of_readParts :
    (ts : List Token) → {cs : List Condition} → {rest : Rest ts} → Unmentioned column ts →
      readParts ts = .ok (cs, rest) → AllOther column (Condition.allColumnRefs cs)
  | [], _, _, _, h => by
    rw [readParts] at h
    cases h
    exact List.forall_mem_nil _
  | t :: after, _, _, hts, h => by
    rw [readParts] at h
    split at h
    · split at h
      · cases h
      · next first r hfirst =>
        split at h
        · cases h
        · next others s hothers =>
          cases h
          have hle := r.length_le
          exact allOther_append.2 ⟨allOther_of_readNegation after hts.tail hfirst,
            allOther_of_readParts r.1 (hts.tail.rest r) hothers⟩
    · cases h
      exact List.forall_mem_nil _
termination_by ts => 5 * ts.length

theorem allOther_of_readNegation :
    (ts : List Token) → {c : Condition} → {rest : Rest ts} → Unmentioned column ts →
      readNegation ts = .ok (c, rest) → AllOther column c.columnRefs
  | [], _, _, hts, h => by
    rw [readNegation] at h
    exact allOther_of_readPrimary [] hts h
  | t :: after, _, _, hts, h => by
    rw [readNegation] at h
    split at h
    · split at h
      · cases h
      · next inner r hinner =>
        cases h
        have hother := allOther_of_readNegation after hts.tail hinner
        exact hother
    · exact allOther_of_readPrimary (t :: after) hts h
termination_by ts => 5 * ts.length + 2

theorem allOther_of_readPrimary :
    (ts : List Token) → {c : Condition} → {rest : Rest ts} → Unmentioned column ts →
      readPrimary ts = .ok (c, rest) → AllOther column c.columnRefs
  | [], _, _, _, h => by
    rw [readPrimary] at h
    cases h
  | t :: after, c, rest, hts, h => by
    -- A bracket that does not enclose a whole condition is read again as part of a simple one.
    have hsimple := yields_simple (t :: after) c rest hts
    rw [readPrimary] at h
    split at h
    · cases h
    · split at h
      · split at h
        · exact hsimple h
        · next inner r hinner =>
          split at h
          · exact hsimple h
          · split at h
            · cases h
              exact allOther_of_readCondition after hts.tail hinner
            · exact hsimple h
      · exact hsimple h
termination_by ts => 5 * ts.length + 1

end

theorem yields_condition : Yields column readCondition fun c => AllOther column c.columnRefs :=
  fun ts _ _ hts h => allOther_of_readCondition ts hts h

/-- The item, unless it is a star, is an expression over other columns. -/
def ItemOther (column : String) (item : SelectItem) : Prop :=
  ∀ e alias? text, item = .expr e alias? text → AllOther column e.columnRefs

theorem yields_written :
    Yields column readWritten fun written => AllOther column written.1.columnRefs :=
  .skip _ fun _ => yields_expr.bind fun _ he => .skip _ fun _ => .pure he

theorem yields_item : Yields column readItem (ItemOther column) := by
  refine .skip _ fun _ => .ite (.pure nofun) (.skip _ fun _ => .ite ?_ ?_)
  · exact .skip _ fun _ => .skip _ fun _ => .skip _ fun _ => .pure nofun
  · refine yields_written.bind fun written hwritten => .skip _ fun _ => .pure ?_
    rintro _ _ _ ⟨⟩
    exact hwritten

theorem yields_pairs : Yields column readPairs fun pairs => ∀ pair ∈ pairs,
    Text.isOther column pair.1.name = true ∧ Text.isOther column pair.2.name = true := by
  have hpair : Yields column readPair fun pair =>
      Text.isOther column pair.1.name = true ∧ Text.isOther column pair.2.name = true :=
    yields_columnRef.bind fun _ hleft => .skip _ fun _ =>
      yields_columnRef.bind fun _ hright => .pure ⟨hleft, hright⟩
  refine .skip _ fun _ => (hpair.separated _).bind fun pairs hpairs => .ite ?_ ?_
  · exact .skip _ fun _ => .pure hpairs
  · exact .pure hpairs

theorem yields_join (kind : JoinKind) (plain : Bool) :
    Yields column (readJoin kind plain) (JoinClause.Avoids column) := by
  have hbehind : ∀ table : TableRef, Yields column (do
      if ← Reader.optional (.keyword .ON) then return ⟨kind, table, ← readPairs⟩
      else if kind = .cross then return ⟨kind, table, []⟩
      else refuse .expectedOn) (JoinClause.Avoids column) := by
    refine fun table => .skip _ fun _ => .ite ?_ (.ite ?_ (.refuse _))
    · exact yields_pairs.bind fun _ hpairs => .pure hpairs
    · exact .pure (List.forall_mem_nil _)
  refine .ite ?_ (.skip _ hbehind)
  exact .skip _ fun _ => .skip _ fun _ => .skip _ hbehind

theorem yields_joins : Yields column readJoins fun clauses =>
    ∀ clause ∈ clauses, JoinClause.Avoids column clause
  | [], _, _, _, h => by
    rw [readJoins] at h
    cases h
    exact List.forall_mem_nil _
  | t :: after, _, _, hts, h => by
    rw [readJoins] at h
    split at h
    · cases h
      exact List.forall_mem_nil _
    · next kind _ =>
      split at h
      · cases h
      · next clause r hclause =>
        split at h
        · cases h
        · next clauses s hclauses =>
          cases h
          have hle := r.length_le
          have hfirst := yields_join kind _ after clause r hts.tail hclause
          have hmore := yields_joins r.1 clauses s (hts.tail.rest r) hclauses
          exact List.forall_mem_cons.2 ⟨hfirst, hmore⟩
termination_by ts => ts.length

theorem yields_orderItem :
    Yields column readOrderItem fun item => AllOther column item.expr.columnRefs := by
  refine yields_expr.bind fun e he => .skip _ fun _ => .ite (.pure he) ?_
  exact .skip _ fun _ => .pure he

theorem allOther_clauseRefs {clause : Option Condition}
    (h : ∀ c ∈ clause, AllOther column c.columnRefs) :
    AllOther column (Condition.clauseRefs clause) := by
  cases clause with
  | none => exact List.forall_mem_nil _
  | some c => exact h c rfl

/-- A list that is left out is empty. -/
theorem forall_mem_getD {α : Type} {P : α → Prop} {as? : Option (List α)}
    (h : ∀ as ∈ as?, ∀ a ∈ as, P a) : ∀ a ∈ as?.getD [], P a := by
  cases as? with
  | none => exact List.forall_mem_nil P
  | some as => exact h as rfl

/-- A query that is read from tokens without the name of a column avoids the column, if it has no
star in its select list. -/
theorem yields_select :
    Yields column readSelect fun s => s.StarFree → s.Avoids column := by
  refine .skip _ fun _ => .skip _ fun _ => (yields_item.separated _).bind fun items hitems => ?_
  refine .skip _ fun _ => .skip _ fun _ => yields_joins.bind fun joins hjoins => ?_
  refine (yields_condition.optionalClause _).bind fun filter hfilter => ?_
  have hgroup : Yields column (do
      Reader.keyword .BY
      Reader.separated (.mark .comma) readColumnRef) (AllOther column) :=
    .skip _ fun _ => yields_columnRef.separated _
  refine (hgroup.optionalClause _).bind fun groupBy hgroupBy => ?_
  refine (yields_condition.optionalClause _).bind fun having hhaving => ?_
  have horder : Yields column (do
      Reader.keyword .BY
      Reader.separated (.mark .comma) readOrderItem)
        fun items => ∀ item ∈ items, AllOther column item.expr.columnRefs :=
    .skip _ fun _ => yields_orderItem.separated _
  refine (horder.optionalClause _).bind fun orderBy horderBy => ?_
  refine .skip _ fun _ => .skip _ fun _ => .pure fun hstars => ?_
  exact ⟨hstars, hitems, hjoins, allOther_clauseRefs hfilter, forall_mem_getD hgroupBy,
    allOther_clauseRefs hhaving, forall_mem_getD horderBy⟩

/-- Among the statements only a SELECT is a query. -/
theorem yields_kind (kind : StatementKind) : Yields column (readKind kind) fun statement =>
    ∀ s, statement = .select s → s.StarFree → s.Avoids column := by
  cases kind with
  | select =>
    refine yields_select.bind fun s hs => .pure ?_
    rintro _ ⟨⟩
    exact hs
  | insert | update | delete | createTable | createIndex | dropTable | alterTable | showTables
  | describe => exact .skip _ fun _ => .pure nofun

end SqlEngine.Grammar
