import SqlEngine.Grammar.Definition
import SqlEngine.Proofs.Cursor.Definition
import SqlEngine.Proofs.Grammar.Depth
import SqlEngine.Proofs.Grammar.Reads

/-!
# Declarations in the body of a table

The body of CREATE TABLE is cut into definitions at its commas, but not at a comma within brackets.
So the tokens of a declaration may hold brackets that are closed, and commas in these, and what is
read from them is told by the first of them and by nothing behind them.
-/
namespace SqlEngine.Grammar

open Cursor (definitionTokens_other)

/-- Brackets are closed, commas stand in brackets only, and there is no semicolon. -/
structure Enclosed (ts : List Token) : Prop where
  balanced : Balanced ts
  comma : ∀ t ∈ outside 0 ts, t.kind ≠ .mark .comma
  semicolon : ∀ t ∈ ts, t.kind ≠ .mark .semicolon

/-- The keywords with which a constraint on a whole table begins, apart from a primary key. -/
def constraintWords : List Keyword := [.UNIQUE, .FOREIGN, .CHECK, .CONSTRAINT]

/-- Names with a comma between each two of them. -/
inductive NamesWritten : List String → List Token → Prop
  | last {t : Token} {name : String} (ht : t.name? = some name) : NamesWritten [name] [t]
  | more {t comma : Token} {name : String} {names : List String} {ts : List Token}
      (ht : t.name? = some name) (hcomma : comma.kind = .mark .comma)
      (hts : NamesWritten names ts) : NamesWritten (name :: names) (t :: comma :: ts)

/-- What the body of CREATE TABLE declares. A column keeps the tokens that declare it. -/
inductive Declaration where
  | column (name : String) (tokens : List Token)
  | key (names : List String)
  | constraint

namespace Declaration

/-- The tokens that a declaration is written with. -/
inductive Written : Declaration → List Token → Prop
  | column {first : Token} {rest : List Token} {name : String} (hname : first.name? = some name)
      (hfirst : ∀ word ∈ Keyword.PRIMARY :: constraintWords, first.kind ≠ .keyword word)
      (h : Enclosed (first :: rest)) : Written (.column name (first :: rest)) (first :: rest)
  | key {primary word left right : Token} {names : List String} {ts : List Token}
      (hprimary : primary.kind = .keyword .PRIMARY) (hword : word.kind = .keyword .KEY)
      (hleft : left.kind = .mark .leftParen) (hnames : NamesWritten names ts)
      (hright : right.kind = .mark .rightParen) :
      Written (.key names) (primary :: word :: (left :: ts ++ [right]))
  | constraint {first : Token} {rest : List Token} {word : Keyword} (hword : word ∈ constraintWords)
      (hfirst : first.kind = .keyword word) (h : Enclosed (first :: rest)) :
      Written .constraint (first :: rest)

/-- The column that is declared, with the tokens that declare it. -/
def column? : Declaration → Option (String × List Token)
  | column name tokens => some (name, tokens)
  | key _ => none
  | constraint => none

/-- The names that are declared a primary key of the table. -/
def keys : Declaration → List String
  | column _ _ => []
  | key names => names
  | constraint => []

/-- The column that the tokens of its declaration give on their own. -/
def columnOf (name : String) (tokens : List Token) : Column :=
  { Column.plain name (typeWord tokens) with
    primaryKey := hasPair (.keyword .PRIMARY) (.keyword .KEY) tokens
    notNull := hasPair (.keyword .NOT) (.keyword .NULL) tokens }

/-- What is read from the tokens of a declaration. -/
def definition : Declaration → Definition
  | column name tokens => .column (columnOf name tokens)
  | key names => .primaryKey names
  | constraint => .otherConstraint

end Declaration

section Tokens

variable {t stop : Token} {depth : Nat} {ts rest : List Token}

theorem name?_of_mark {m : Mark} (h : t.kind = .mark m) : t.name? = none := by
  rw [Token.name?, h]

/-- What is cut off for a definition ends at the comma or bracket behind it. -/
theorem definitionTokens_enclosed (hdepth : depthAfter depth ts = some 0)
    (hcomma : ∀ t ∈ outside depth ts, t.kind ≠ .mark .comma)
    (hsemicolon : ∀ t ∈ ts, t.kind ≠ .mark .semicolon)
    (hstop : stop.kind = .mark .comma ∨ stop.kind = .mark .rightParen) (started : Bool)
    (rest : List Token) : definitionTokens depth started (ts ++ stop :: rest) = .ok ts := by
  induction ts generalizing depth started with
  | nil =>
    cases hdepth
    rcases hstop with hstop | hstop
    · simp [definitionTokens, hstop]
    · simp [definitionTokens, hstop]
  | cons t ts ih =>
    obtain ⟨hfirst, hmore⟩ := List.forall_mem_cons.1 hsemicolon
    rw [List.cons_append]
    by_cases hleft : t.kind = .mark .leftParen
    · rw [depthAfter_left hleft] at hdepth
      rw [outside_left hleft] at hcomma
      rw [definitionTokens, hleft]
      dsimp only
      rw [ih hdepth hcomma hmore]
      rfl
    by_cases hright : t.kind = .mark .rightParen
    · rw [depthAfter_right hright] at hdepth
      rw [outside_right hright] at hcomma
      split at hdepth
      · cases hdepth
      · next hopen =>
        rw [definitionTokens, hright]
        dsimp only
        rw [if_neg hopen, ih hdepth hcomma hmore]
        rfl
    rw [depthAfter_other hleft hright] at hdepth
    rw [outside_other hleft hright] at hcomma
    have hinside : ∀ u ∈ outside depth ts, u.kind ≠ .mark .comma := by
      intro u hu
      refine hcomma u ?_
      split
      · exact List.mem_cons_of_mem t hu
      · exact hu
    by_cases hmark : t.kind = .mark .comma
    · have hdeep : depth ≠ 0 := by
        rintro rfl
        exact hcomma t List.mem_cons_self hmark
      rw [definitionTokens, hmark]
      dsimp only
      rw [if_neg hdeep, ih hdepth hinside hmore]
      rfl
    · rw [definitionTokens_other hleft hright hmark hfirst, ih hdepth hinside hmore]
      rfl

namespace NamesWritten

variable {names : List String}

theorem name_or_comma (h : NamesWritten names ts) :
    ∀ t ∈ ts, (∃ name, t.name? = some name) ∨ t.kind = .mark .comma := by
  induction h with
  | last ht => exact List.forall_mem_singleton.2 (.inl ⟨_, ht⟩)
  | more ht hcomma hts ih =>
    rw [List.forall_mem_cons, List.forall_mem_cons]
    exact ⟨.inl ⟨_, ht⟩, .inr hcomma, ih⟩

/-- Among names and commas stands no other mark. -/
theorem ne_mark (h : NamesWritten names ts) {m : Mark} (hm : m ≠ .comma) :
    ∀ t ∈ ts, t.kind ≠ .mark m := by
  intro t ht hmark
  rcases h.name_or_comma t ht with ⟨name, hname⟩ | hcomma
  · rw [name?_of_mark hmark] at hname
    cases hname
  · exact hm (TokenKind.mark.inj (hmark.symm.trans hcomma))

theorem balanced (h : NamesWritten names ts) : Balanced ts := by
  have hleft := h.ne_mark (m := .leftParen) (by decide)
  have hright := h.ne_mark (m := .rightParen) (by decide)
  clear h
  induction ts with
  | nil => rfl
  | cons t ts ih =>
    obtain ⟨htl, hleft⟩ := List.forall_mem_cons.1 hleft
    obtain ⟨htr, hright⟩ := List.forall_mem_cons.1 hright
    exact (ih hleft hright).cons htl htr

theorem filterMap_name? (h : NamesWritten names ts) : ts.filterMap Token.name? = names := by
  induction h with
  | last ht => rw [List.filterMap_cons_some ht, List.filterMap_nil]
  | more ht hcomma hts ih =>
    rw [List.filterMap_cons_some ht, List.filterMap_cons_none (name?_of_mark hcomma), ih]

end NamesWritten

end Tokens

namespace Declaration.Written

variable {declaration : Declaration} {ts : List Token}

theorem enclosed (h : declaration.Written ts) : Enclosed ts := by
  cases h with
  | column hname hfirst h => exact h
  | constraint hword hfirst h => exact h
  | @key primary word left right names ts hprimary hword hleft hnames hright =>
    have hinner := hnames.balanced
    have hneither : ∀ {t : Token} {keyword : Keyword}, t.kind = .keyword keyword →
        ∀ m, t.kind ≠ .mark m := by
      intro t keyword ht m hm
      rw [ht] at hm
      cases hm
    have hp := hneither hprimary
    have hw := hneither hword
    constructor
    · exact ((Balanced.bracketed hleft hinner hright).cons (hw _) (hw _)).cons (hp _) (hp _)
    · rw [outside_other (hp _) (hp _), if_pos rfl, outside_other (hw _) (hw _), if_pos rfl,
        outside_bracketed hleft hinner hright, List.forall_mem_cons, List.forall_mem_singleton]
      exact ⟨hp _, hw _⟩
    · rw [List.forall_mem_cons, List.forall_mem_cons, List.cons_append, List.forall_mem_cons,
        List.forall_mem_append, List.forall_mem_singleton, hleft, hright]
      exact ⟨hp _, hw _, by decide, hnames.ne_mark (by decide), by decide⟩

theorem definitionOf_eq (h : declaration.Written ts) (next : Option Token) :
    definitionOf ts next = .ok declaration.definition := by
  cases h with
  | column hname hfirst h =>
    unfold definitionOf
    split
    · next heq => cases heq
    · next heq =>
      cases heq
      split
      · next hkind => exact absurd hkind (hfirst _ (by decide))
      · next hkind => exact absurd hkind (hfirst _ (by decide))
      · next hkind => exact absurd hkind (hfirst _ (by decide))
      · next hkind => exact absurd hkind (hfirst _ (by decide))
      · next hkind => exact absurd hkind (hfirst _ (by decide))
      · rw [hname]
        rfl
  | constraint hword hfirst h =>
    simp only [constraintWords, List.mem_cons, List.not_mem_nil, or_false] at hword
    rw [definitionOf, hfirst]
    rcases hword with rfl | rfl | rfl | rfl <;> rfl
  | @key primary word left right names ts hprimary hword hleft hnames hright =>
    have hkeys : keyNames (primary :: word :: (left :: ts ++ [right])) = names := by
      rw [keyNames, List.dropWhile_cons_of_pos (by simp [hprimary]),
        List.dropWhile_cons_of_pos (by simp [hword]), List.cons_append,
        List.dropWhile_cons_of_neg (by simp [hleft]),
        List.filterMap_cons_none (name?_of_mark hleft), List.filterMap_append,
        hnames.filterMap_name?, List.filterMap_cons_none (name?_of_mark hright),
        List.filterMap_nil, List.append_nil]
    rw [definitionOf, hprimary]
    dsimp only
    rw [hkeys]
    rfl

/-- A declaration is read from the tokens that it is written with. -/
theorem reads (h : declaration.Written ts) {stop : Token}
    (hstop : stop.kind = .mark .comma ∨ stop.kind = .mark .rightParen) (rest : List Token) :
    Reads readDefinition (ts ++ stop :: rest) declaration.definition (stop :: rest) := by
  obtain ⟨hbalanced, hcomma, hsemicolon⟩ := h.enclosed
  have htaken := definitionTokens_enclosed hbalanced hcomma hsemicolon hstop false rest
  refine ⟨⟨_, List.drop_suffix ts.length _⟩, ?_, List.drop_left⟩
  rw [readDefinition, htaken]
  dsimp only
  rw [h.definitionOf_eq]

end Declaration.Written

/-- Two kinds stand side by side among the tokens. -/
def SideBySide (first second : TokenKind) (ts : List Token) : Prop :=
  ∃ front t u behind, ts = front ++ t :: u :: behind ∧ t.kind = first ∧ u.kind = second

/-- What becomes of a column that is declared with some tokens, in a table with some keys. -/
structure Gives (keys : List String) (name : String) (tokens : List Token) (column : Column) :
    Prop where
  named : column.name = Text.lower name
  typed : ∀ t word, tokens[1]? = some t → t.kind = .identifier word →
    column.type = normalizeType t.text
  untyped : (∀ t word, tokens[1]? = some t → t.kind ≠ .identifier word) → column.type = "TEXT"
  primaryKey : column.primaryKey = true ↔ SideBySide (.keyword .PRIMARY) (.keyword .KEY) tokens ∨
    ∃ key ∈ keys, Text.sameName (Text.lower name) key = true
  notNull : column.notNull = true ↔ SideBySide (.keyword .NOT) (.keyword .NULL) tokens

theorem hasPair_iff {first second : TokenKind} {ts : List Token} :
    hasPair first second ts = true ↔ SideBySide first second ts := by
  induction ts with
  | nil => simp [hasPair, SideBySide]
  | cons t rest ih =>
    cases rest with
    | nil =>
      refine ⟨fun h => (by cases h), ?_⟩
      rintro ⟨front, u, v, behind, heq, -⟩
      have hlength := congrArg List.length heq
      simp only [List.length_append, List.length_cons, List.length_nil] at hlength
      omega
    | cons u rest =>
      rw [hasPair, Bool.or_eq_true, ih]
      simp only [Bool.and_eq_true, decide_eq_true_eq]
      constructor
      · rintro (⟨ht, hu⟩ | ⟨front, v, w, behind, heq, hv, hw⟩)
        · exact ⟨[], t, u, rest, rfl, ht, hu⟩
        · exact ⟨t :: front, v, w, behind, congrArg (t :: ·) heq, hv, hw⟩
      · rintro ⟨front, v, w, behind, heq, hv, hw⟩
        cases front with
        | nil =>
          cases heq
          exact .inl ⟨hv, hw⟩
        | cons first front =>
          exact .inr ⟨front, v, w, behind, (List.cons.inj heq).2, hv, hw⟩

theorem typeWord_of_identifier {tokens : List Token} {t : Token} {word : String}
    (ht : tokens[1]? = some t) (hword : t.kind = .identifier word) :
    typeWord tokens = t.text := by
  match tokens, ht with
  | _ :: _ :: _, rfl => simp [typeWord, hword]

theorem typeWord_of_other {tokens : List Token}
    (h : ∀ t word, tokens[1]? = some t → t.kind ≠ .identifier word) :
    typeWord tokens = "TEXT" := by
  match tokens with
  | [] => rfl
  | [_] => rfl
  | _ :: t :: _ =>
    rw [typeWord]
    split
    · next word hword => exact absurd hword (h t word rfl)
    · rfl

theorem gives_columnOf (keys : List String) (name : String) (tokens : List Token) :
    Gives keys name tokens { Declaration.columnOf name tokens with
      primaryKey := (Declaration.columnOf name tokens).primaryKey ||
        keys.any (Text.sameName (Text.lower name)) } where
  named := rfl
  typed t word ht hword := congrArg normalizeType (typeWord_of_identifier ht hword)
  untyped h := by
    have htext : normalizeType "TEXT" = "TEXT" := by decide
    exact (congrArg normalizeType (typeWord_of_other h)).trans htext
  primaryKey := by
    rw [Bool.or_eq_true, List.any_eq_true]
    exact or_congr_left hasPair_iff
  notNull := hasPair_iff

end SqlEngine.Grammar
