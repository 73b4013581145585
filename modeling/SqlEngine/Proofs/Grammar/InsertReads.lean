import SqlEngine.Grammar.Statement
import SqlEngine.Proofs.Grammar.ReadBack

/-!
# Reading an INSERT

The readers of names, lists and groups of values, and an INSERT of one literal put together from
them.
-/
namespace SqlEngine.Grammar

variable {α : Type}

theorem reads_name {t : Token} {name : String} (ht : t.name? = some name) (rest : List Token) :
    Reads Reader.name (t :: rest) (Text.lower name) rest :=
  reads_bind.2 ⟨name, rest, reads_identifier ht rest, reads_pure.2 ⟨rfl, rfl⟩⟩

theorem reads_ahead (ts : List Token) : Reads Reader.ahead ts ts ts := ⟨.whole ts, rfl, rfl⟩

theorem reads_furtherItems_none {separator : TokenKind} {item : Reader α} {ts : List Token}
    (h : ∀ t ∈ ts.head?, t.kind ≠ separator) :
    Reads (Reader.furtherItems separator item) ts [] ts := by
  cases ts with
  | nil => exact ⟨.whole [], by rw [Reader.furtherItems], rfl⟩
  | cons t rest =>
    refine ⟨.whole _, ?_, rfl⟩
    rw [Reader.furtherItems, if_neg (h t rfl)]

/-- A list ends behind its first item where no separator follows. -/
theorem reads_separated_single {separator : TokenKind} {item : Reader α} {ts rest : List Token}
    {a : α} (ha : Reads item ts a rest) (h : ∀ t ∈ rest.head?, t.kind ≠ separator) :
    Reads (Reader.separated separator item) ts [a] rest :=
  reads_bind.2 ⟨a, rest, ha, reads_bind.2 ⟨[], rest, reads_furtherItems_none h,
    reads_pure.2 ⟨rfl, rfl⟩⟩⟩

/-- A group of one literal. -/
theorem reads_group_text {l v r : Token} {quote : Char} {content : String} {rest : List Token}
    (hl : l.kind = .mark .leftParen) (hv : v.kind = .string quote content)
    (hr : r.kind = .mark .rightParen) :
    Reads readGroup (l :: v :: r :: rest) [.literal (.text content)] rest := by
  have hclose : Ahead endsExpr (r :: rest) := ahead_cons hr rfl
  have hvalue : Reads readExprs (v :: r :: rest) [.literal (.text content)] (r :: rest) :=
    reads_single (by simp [hr]) (reads_exprFrom (reads_text hv _) (reads_operators_stop hclose))
  have hnonempty : startsWith (.mark .rightParen) (v :: r :: rest) = false := by
    simp [startsWith, hv]
  refine reads_bind.2 ⟨(), _, reads_mark hl _, reads_bind.2 ⟨_, _, reads_ahead _, ?_⟩⟩
  rw [hnonempty]
  exact reads_bind.2 ⟨_, _, hvalue, reads_bind.2 ⟨(), _, reads_mark hr _, reads_pure.2 ⟨rfl, rfl⟩⟩⟩

/-- Reads of a table with one column and one group of one literal. -/
theorem reads_insert {i o t l c r v l' s r' : Token} {table column content : String} {quote : Char}
    (hi : i.kind = .keyword .INSERT) (ho : o.kind = .keyword .INTO) (ht : t.name? = some table)
    (hl : l.kind = .mark .leftParen) (hc : c.name? = some column)
    (hr : r.kind = .mark .rightParen) (hv : v.kind = .keyword .VALUES)
    (hl' : l'.kind = .mark .leftParen) (hs : s.kind = .string quote content)
    (hr' : r'.kind = .mark .rightParen) :
    Reads readInsert [i, o, t, l, c, r, v, l', s, r']
      ⟨Text.lower table, some [Text.lower column], [[.literal (.text content)]]⟩ [] := by
  have hcolumns : Reads (Reader.separated (.mark .comma) Reader.name) [c, r, v, l', s, r']
      [Text.lower column] [r, v, l', s, r'] :=
    reads_separated_single (reads_name hc _) (by simp [hr])
  have hgroups : Reads (Reader.separated (.mark .comma) readGroup) [l', s, r']
      [[.literal (.text content)]] [] :=
    reads_separated_single (reads_group_text hl' hs hr') (by simp)
  unfold readInsert
  refine reads_bind.2 ⟨(), _, reads_keyword hi _, ?_⟩
  refine reads_bind.2 ⟨(), _, reads_keyword ho _, ?_⟩
  refine reads_bind.2 ⟨_, _, reads_name ht _, ?_⟩
  refine reads_bind.2 ⟨true, _, reads_optional hl _, ?_⟩
  rw [if_pos rfl]
  refine reads_bind.2 ⟨_, _, hcolumns, reads_bind.2 ⟨(), _, reads_mark hr _, ?_⟩⟩
  refine reads_bind.2 ⟨_, _, reads_pure.2 ⟨rfl, rfl⟩, ?_⟩
  refine reads_bind.2 ⟨(), _, reads_keyword hv _, reads_bind.2 ⟨_, _, hgroups, ?_⟩⟩
  exact reads_pure.2 ⟨rfl, rfl⟩

/-- A statement is read to the end of its tokens. -/
theorem reads_whole {kind : StatementKind} {ts : List Token} {statement : Statement}
    (h : Reads (readKind kind) ts statement []) : Reads (readWhole kind) ts statement [] := by
  have hsemicolon : Reads (Reader.optional (.mark .semicolon)) [] false [] :=
    reads_optional_absent (by simp)
  refine reads_bind.2 ⟨_, _, h, reads_bind.2 ⟨_, _, hsemicolon, ?_⟩⟩
  exact reads_bind.2 ⟨_, _, reads_ahead [], reads_pure.2 ⟨rfl, rfl⟩⟩

end SqlEngine.Grammar

namespace SqlEngine

theorem Statement.ofTokens_eq_ok {kind : StatementKind} {list : TokenList} {statement : Statement}
    (h : Grammar.Reads (Grammar.readKind kind) list.tokens statement []) :
    Statement.ofTokens kind list = .ok statement := by
  obtain ⟨rest, hrest, -⟩ := Grammar.reads_whole h
  rw [Statement.ofTokens, hrest]

end SqlEngine
