import SqlEngine.Proofs.Grammar.Forms

/-!
# What is read can be written

Every expression that the reader returns is written by some tokens. Each form of an expression is
written with brackets around its operator, whatever tokens it was read from.
-/
namespace SqlEngine.Grammar

/-- A token of the given kind, apart from any text. -/
def tokenOf (kind : TokenKind) : Token := ⟨kind, [], [], .start⟩

/-- Some tokens write the phrase. -/
def Phrase.Writable (p : Phrase) : Prop := ∃ ts, p.Written ts

theorem writable_binary {t : Token} {op : Operator} {left right : Expr}
    (ht : operator? t.kind = some op) (hleft : (Phrase.expr left).Writable)
    (hright : (Phrase.expr right).Writable) : (Phrase.expr (.binary op left right)).Writable := by
  obtain ⟨ts, hts⟩ := hleft
  obtain ⟨us, hus⟩ := hright
  let open' := tokenOf (.mark .leftParen)
  let close := tokenOf (.mark .rightParen)
  exact ⟨open' :: ts ++ t :: us ++ [close], .binary rfl hts ht hus rfl⟩

theorem exists_optionally (word : Keyword) (flag : Bool) : ∃ ts, Optionally word flag ts := by
  cases flag with
  | false => exact ⟨[], .absent⟩
  | true => exact ⟨[tokenOf (.keyword word)], .present rfl⟩

theorem writable_items {es : List Expr} (hes : ∀ e ∈ es, (Phrase.expr e).Writable)
    (hne : es ≠ []) : (Phrase.items es).Writable := by
  induction es with
  | nil => exact absurd rfl hne
  | cons e rest ih =>
    obtain ⟨⟨ts, hts⟩, hmore⟩ := List.forall_mem_cons.1 hes
    by_cases hrest : rest = []
    · subst hrest
      exact ⟨ts, .single hts⟩
    · obtain ⟨us, hus⟩ := ih hmore hrest
      exact ⟨ts ++ tokenOf (.mark .comma) :: us, .more hts rfl hus⟩

/-- What a function takes is written between its brackets, a star or expressions. -/
theorem writable_arguments {f : Function} {es : List Expr}
    (hes : (f = .count ∧ es = [.star]) ∨ ∀ e ∈ es, (Phrase.expr e).Writable)
    (htakes : f.takes es.length = true) : (Phrase.arguments f es).Writable := by
  rcases hes with ⟨rfl, rfl⟩ | hes
  · exact ⟨[tokenOf (.mark .star)], .star rfl⟩
  · have hne : es ≠ [] := by
      rintro rfl
      simp [Function.takes, Function.minArguments] at htakes
    obtain ⟨ts, hts⟩ := writable_items hes hne
    exact ⟨ts, .plain hts⟩

/-- A call can be written behind each name of its function. -/
theorem writable_call {t : Token} {name : String} {f : Function} {distinct : Bool} {es : List Expr}
    (ht : IsName t name) (hf : Function.ofName? name = some f)
    (hdistinct : distinct = true → f = .count) (hes : (Phrase.arguments f es).Writable)
    (htakes : f.takes es.length = true) : (Phrase.expr (.call f distinct es)).Writable := by
  obtain ⟨ts, hts⟩ := hes
  obtain ⟨ds, hds⟩ := exists_optionally .DISTINCT distinct
  let open' := tokenOf (.mark .leftParen)
  let close := tokenOf (.mark .rightParen)
  exact ⟨t :: open' :: ds ++ ts ++ [close], .call ht hf rfl hdistinct hds hts htakes rfl⟩

theorem heldByForms_writable : HeldByForms (fun _ => True) fun e => (Phrase.expr e).Writable where
  number ht := ⟨[_], .number ht⟩
  text ht := ⟨[_], .text ht⟩
  null ht := ⟨[_], .null ht⟩
  column ht _ := ⟨[_], .column ht⟩
  qualified ht hd hu _ := ⟨[_, _, _], .qualified ht hd hu⟩
  negated ht he := by
    obtain ⟨ts, hts⟩ := he
    exact ⟨_ :: ts, .negated ht hts⟩
  binary := writable_binary
  call ht hf hdistinct hes htakes :=
    writable_call ht hf hdistinct (writable_arguments hes htakes) htakes

/-- Some tokens write what was read. -/
theorem writable_of_readExprFrom (floor : Nat) (ts : List Token) {e : Expr} {rest : Rest ts}
    (h : readExprFrom floor ts = .ok (e, rest)) : (Phrase.expr e).Writable :=
  heldByForms_writable.of_readExprFrom floor ts (fun _ _ _ _ => trivial) h

end SqlEngine.Grammar
