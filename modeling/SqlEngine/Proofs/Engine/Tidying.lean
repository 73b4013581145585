import SqlEngine.Proofs.Engine.History
import SqlEngine.Proofs.Grammar.AlikeStatements

/-!
# Statements with their lines trimmed

Trimming the lines of a statement may change a text that goes over several lines. Where it changes
no token, the statement does what it did before: it is of the same kind, since that is told from its
leading words, and its tokens are alike. Only where it fails is the difference seen, for the record
of a failure holds the statement and the failure may name a place in it.
-/
namespace SqlEngine

open Script

section Words

variable {cs ds : List Char}

theorem leadingWords_isBlank {c : Char} (hc : Text.isBlank c = true) (word : List Char)
    (limit : Nat) (rest : List Char) :
    leadingWords word (limit + 1) (c :: rest) =
      if word.isEmpty then leadingWords [] (limit + 1) rest
      else String.ofList word.reverse :: leadingWords [] limit rest := by
  have hword : ¬ Text.continuesWord c = true := fun h => by
    rw [Text.isBlank_of_continuesWord h] at hc
    cases hc
  rw [leadingWords]
  exact (if_neg hword).trans (if_pos hc)

theorem leadingWords_nil_isBlank {c : Char} (hc : Text.isBlank c = true) (limit : Nat)
    (rest : List Char) : leadingWords [] limit (c :: rest) = leadingWords [] limit rest := by
  cases limit with
  | zero => rw [leadingWords, leadingWords]
  | succ limit => exact leadingWords_isBlank hc [] limit rest

theorem leadingWords_nil_blanks {blanks : List Char} (h : ∀ c ∈ blanks, Text.isBlank c = true)
    (limit : Nat) (rest : List Char) :
    leadingWords [] limit (blanks ++ rest) = leadingWords [] limit rest := by
  induction blanks with
  | nil => rfl
  | cons c blanks ih =>
    obtain ⟨hc, hblanks⟩ := List.forall_mem_cons.1 h
    rw [List.cons_append, leadingWords_nil_isBlank hc, ih hblanks]

/-- A thinned text begins with the same words. -/
theorem leadingWords_thinned (h : Thinned cs ds) (word : List Char) (limit : Nat) :
    leadingWords word limit ds = leadingWords word limit cs := by
  have hnewline : Text.isBlank '\n' = true := by decide
  induction h generalizing word limit with
  | nil => rfl
  | keep c h ih =>
    cases limit with
    | zero => rfl
    | succ limit => simp only [leadingWords, ih]
  | before hc h ih =>
    cases limit with
    | zero => rfl
    | succ limit =>
      have hnone := fun limit =>
        (leadingWords_nil_isBlank hnewline limit _).symm.trans (ih [] limit)
      rw [leadingWords_isBlank hnewline, leadingWords_isBlank hc, hnone, hnone]
  | behind hblanks h ih =>
    cases limit with
    | zero => rfl
    | succ limit =>
      have hnone := fun limit => (leadingWords_nil_blanks hblanks limit _).symm.trans (ih [] limit)
      rw [leadingWords_isBlank hnewline, leadingWords_isBlank hnewline, hnone, hnone]

end Words

/-- Thinning a text leaves its tokens alike if it changes no token. -/
theorem Lexer.tokens_thinned {sql sql' : String} {list : TokenList} (h : tokens sql = .ok list)
    (hthin : Thinned sql.toList sql'.toList)
    (hsteady : ∀ t ∈ list.tokens, squeeze t.lexeme = t.lexeme) :
    ∃ list', tokens sql' = .ok list' ∧ Grammar.Alike list.tokens list'.tokens := by
  obtain ⟨tokens', hcuts, halike⟩ := (cuts_of_tokensFrom h).thinned hthin hsteady .start
  obtain ⟨list', hlist', rfl⟩ := cuts_iff.1 hcuts
  exact ⟨list', hlist', halike⟩

/-- Trimming the lines of a statement leaves it as it is, or at least each token of it. -/
def Script.Steady (s : String) : Prop :=
  tidy s = s ∨ ∃ list, Lexer.tokens (stripComments s) = .ok list ∧
    ∀ t ∈ list.tokens, squeeze t.lexeme = t.lexeme

instance Script.Steady.decidable (s : String) : Decidable (Steady s) :=
  match h : Lexer.tokens (stripComments s) with
  | .ok list =>
    decidable_of_iff (tidy s = s ∨ ∀ t ∈ list.tokens, squeeze t.lexeme = t.lexeme)
      (by simp [Steady, h])
  | .error _ => decidable_of_iff (tidy s = s) (by simp [Steady, h])

/-- The records are the same, or both of failures. -/
inductive Record.Alike : Record → Record → Prop
  | same (record : Record) : Alike record record
  | failures (e e' : SqlError) (sql sql' : String) : Alike (.failed e sql) (.failed e' sql')

namespace Engine

variable {sql sql' : String}

/-- Both texts fail, or they do the same. -/
theorem outcomeOf_thinned (engine : Engine) (hthin : Thinned sql.toList sql'.toList)
    {list : TokenList} (h : Lexer.tokens sql = .ok list)
    (hsteady : ∀ t ∈ list.tokens, squeeze t.lexeme = t.lexeme) :
    Together Eq (engine.outcomeOf sql) (engine.outcomeOf sql') := by
  obtain ⟨list', h', halike⟩ := Lexer.tokens_thinned h hthin hsteady
  have hkind : StatementKind.ofText? sql' = StatementKind.ofText? sql :=
    congrArg StatementKind.ofWords? (leadingWords_thinned hthin [] 3)
  rw [outcomeOf_eq, outcomeOf_eq, Statement.ofText, Statement.ofText, hkind]
  cases StatementKind.ofText? sql with
  | none => exact .failed _ _
  | some kind =>
    have hread := Statement.ofTokens_alike halike kind
    simp only [Statement.ofTextAs, TokenList.ofText, h, h']
    refine hread.bind fun s t hst => ?_
    rw [hst]
    exact .refl (fun _ => rfl) _

/-- A statement with its lines trimmed leaves the same engine, and a record if the statement leaves
one. -/
theorem runStatement_tidy (engine : Engine) {raw : String} (h : Steady raw) :
    (engine.runStatement (tidy raw)).2 = (engine.runStatement raw).2 ∧
      Option.Rel Record.Alike (engine.runStatement raw).1 (engine.runStatement (tidy raw)).1 := by
  obtain hkept | ⟨list, hlist, hsteady⟩ := h
  · rw [hkept]
    refine ⟨rfl, ?_⟩
    cases (engine.runStatement raw).1 with
    | none => exact .none
    | some record => exact .some (.same record)
  · have hthin : Thinned (stripComments raw).toList (stripComments (tidy raw)).toList := by
      simp only [stripComments, tidy, String.toList_ofList]
      exact thinned_stripChars raw.toList
    have hempty : (stripComments (tidy raw)).isEmpty = (stripComments raw).isEmpty := by
      rw [Bool.eq_iff_iff, String.isEmpty_iff, String.isEmpty_iff, ← String.toList_eq_nil_iff,
        ← String.toList_eq_nil_iff]
      exact hthin.eq_nil_iff
    have houtcome := engine.outcomeOf_thinned hthin hlist hsteady
    rw [runStatement_eq, runStatement_eq, hempty]
    split
    · exact ⟨rfl, .none⟩
    · generalize engine.outcomeOf (stripComments raw) = x,
        engine.outcomeOf (stripComments (tidy raw)) = y at houtcome ⊢
      cases houtcome with
      | failed e e' => exact ⟨rfl, .some (.failures e e' _ _)⟩
      | done hdone =>
        rw [hdone]
        exact ⟨rfl, .some (.same _)⟩

/-- Statements with their lines trimmed leave the same engine, and as many records. -/
theorem runStatements_tidy (engine : Engine) {statements : List String}
    (h : ∀ s ∈ statements, Steady s) :
    (engine.runStatements (statements.map tidy)).2 = (engine.runStatements statements).2 ∧
      List.Forall₂ Record.Alike (engine.runStatements statements).1
        (engine.runStatements (statements.map tidy)).1 := by
  induction statements generalizing engine with
  | nil => exact ⟨rfl, .nil⟩
  | cons raw rest ih =>
    obtain ⟨hraw, hrest⟩ := List.forall_mem_cons.1 h
    obtain ⟨hengine, hrecord⟩ := engine.runStatement_tidy hraw
    obtain ⟨hengine', hrecords⟩ := ih (engine.runStatement raw).2 hrest
    rw [List.map_cons, runStatements, runStatements]
    dsimp only
    rw [hengine]
    refine ⟨hengine', List.rel_append ?_ hrecords⟩
    generalize (engine.runStatement raw).1 = o, (engine.runStatement (tidy raw)).1 = o' at hrecord ⊢
    cases hrecord with
    | none => exact .nil
    | some hfirst => exact .cons hfirst .nil

end Engine
end SqlEngine
