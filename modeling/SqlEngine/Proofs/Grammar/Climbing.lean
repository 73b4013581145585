import SqlEngine.Proofs.Grammar.Layers

/-!
# Precedence and layers

The reader of expressions goes by a floor: it takes an operator that binds at least as tightly as
the floor, and reads its right side with a floor above it. With the lowest floor it is the reader of
sums, with the floor of products it is the reader of products, and with a floor above all operators
it is the reader of operands. The readers agree on every list of tokens, where they fail as well.
-/
namespace SqlEngine.Grammar

variable {α β γ : Type}

/-- A reading of what is left, seen from the tokens of which it is left. -/
def Reading.under {ts : List Token} (r : Rest ts) : Reading α r.1 → Reading α ts
  | .error e => .error e
  | .ok (a, s) => .ok (a, r.trans s)

theorem Reading.under_under {ts : List Token} {r : Rest ts} {s : Rest r.1} (last : Reading α s.1) :
    (last.under s).under r = Reading.under (r.trans s) last := by
  cases last <;> rfl

/-- A reading and what is read of the tokens that it leaves. -/
def Reading.followedBy {ts : List Token} (first : Reading α ts)
    (next : α → (us : List Token) → Reading β us) : Reading β ts :=
  match first with
  | .error e => .error e
  | .ok (a, r) => (next a r.1).under r

theorem Reading.under_followedBy {ts : List Token} {r : Rest ts} (first : Reading α r.1)
    (next : α → (us : List Token) → Reading β us) :
    (first.under r).followedBy next = (first.followedBy next).under r := by
  cases first with
  | error e => rfl
  | ok read => exact (under_under _).symm

theorem Reading.followedBy_assoc {ts : List Token} (first : Reading α ts)
    (next : α → (us : List Token) → Reading β us) (last : β → (us : List Token) → Reading γ us) :
    (first.followedBy next).followedBy last =
      first.followedBy fun a us => (next a us).followedBy last := by
  cases first with
  | error e => rfl
  | ok read => exact under_followedBy _ last

/-- What is read behind a first reading matters only on the tokens that this one leaves. -/
theorem Reading.followedBy_congr {ts : List Token} {first : Reading α ts}
    {next next' : α → (us : List Token) → Reading β us}
    (h : ∀ a r, first = .ok (a, r) → next a r.1 = next' a r.1) :
    first.followedBy next = first.followedBy next' := by
  cases first with
  | error e => rfl
  | ok read => exact congrArg (Reading.under read.2) (h read.1 read.2 rfl)

theorem Reading.whole_followedBy {ts : List Token} (a : α)
    (next : α → (us : List Token) → Reading β us) :
    Reading.followedBy (.ok (a, .whole ts)) next = next a ts := by
  cases h : next a ts with
  | error e => exact congrArg (Reading.under (.whole ts)) h
  | ok read => exact congrArg (Reading.under (.whole ts)) h

/-- A reading of what stands behind a token, seen from the token. -/
def Reading.behind (t : Token) {ts : List Token} (reading : Reading α ts) : Reading α (t :: ts) :=
  Reading.under (.tail t ts (.whole ts)) reading

theorem Reading.behind_followedBy {t : Token} {ts : List Token} (first : Reading α ts)
    (next : α → (us : List Token) → Reading β us) :
    (first.behind t).followedBy next = (first.followedBy next).behind t :=
  under_followedBy (r := .tail t ts (.whole ts)) first next

theorem readExprFrom_eq (floor : Nat) (ts : List Token) :
    readExprFrom floor ts = (readOperand ts).followedBy (readOperators floor) := by
  rw [readExprFrom]
  cases readOperand ts with
  | error e => rfl
  | ok read =>
    obtain ⟨left, r⟩ := read
    simp only [Reading.followedBy]
    cases readOperators floor left r.1 <;> rfl

theorem readSum_eq (ts : List Token) : readSum ts = (readProduct ts).followedBy readTerms := by
  rw [readSum]
  cases readProduct ts with
  | error e => rfl
  | ok read =>
    obtain ⟨left, r⟩ := read
    simp only [Reading.followedBy]
    cases readTerms left r.1 <;> rfl

theorem readProduct_eq (ts : List Token) :
    readProduct ts = (readUnary ts).followedBy readFactors := by
  rw [readProduct]
  cases readUnary ts with
  | error e => rfl
  | ok read =>
    obtain ⟨left, r⟩ := read
    simp only [Reading.followedBy]
    cases readFactors left r.1 <;> rfl

theorem readOperators_cons {floor : Nat} {t : Token} {op : Operator} (left : Expr)
    (after : List Token) (ht : operator? t.kind = some op) (hfloor : floor ≤ op.precedence) :
    readOperators floor left (t :: after) =
      ((readExprFrom (op.precedence + 1) after).followedBy fun right =>
        readOperators floor (.binary op left right)).behind t := by
  rw [readOperators, ht]
  simp only [if_neg (Nat.not_lt.2 hfloor), Reading.followedBy]
  cases readExprFrom (op.precedence + 1) after with
  | error e => rfl
  | ok read =>
    obtain ⟨right, r⟩ := read
    dsimp only
    cases readOperators floor (.binary op left right) r.1 <;> rfl

theorem readOperators_stop {floor : Nat} {left : Expr} {ts : List Token}
    (h : ∀ t ∈ ts.head?, ∀ op, operator? t.kind = some op → op.precedence < floor) :
    readOperators floor left ts = .ok (left, .whole ts) := by
  cases ts with
  | nil => rw [readOperators]
  | cons t after =>
    rw [readOperators]
    split
    · rfl
    · next op hop => rw [if_pos (h t rfl op hop)]

theorem readTerms_cons {t : Token} {op : Operator} (left : Expr) (after : List Token)
    (ht : additive? t.kind = some op) :
    readTerms left (t :: after) =
      ((readProduct after).followedBy fun right => readTerms (.binary op left right)).behind t := by
  rw [readTerms, ht]
  simp only [Reading.followedBy]
  cases readProduct after with
  | error e => rfl
  | ok read =>
    obtain ⟨right, r⟩ := read
    dsimp only
    cases readTerms (.binary op left right) r.1 <;> rfl

theorem readTerms_stop {left : Expr} {ts : List Token}
    (h : ∀ t ∈ ts.head?, additive? t.kind = none) : readTerms left ts = .ok (left, .whole ts) := by
  cases ts with
  | nil => rw [readTerms]
  | cons t after => rw [readTerms, h t rfl]

theorem readFactors_cons {t : Token} {op : Operator} (left : Expr) (after : List Token)
    (ht : multiplicative? t.kind = some op) :
    readFactors left (t :: after) =
      ((readUnary after).followedBy fun right => readFactors (.binary op left right)).behind t := by
  rw [readFactors, ht]
  simp only [Reading.followedBy]
  cases readUnary after with
  | error e => rfl
  | ok read =>
    obtain ⟨right, r⟩ := read
    dsimp only
    cases readFactors (.binary op left right) r.1 <;> rfl

theorem readFactors_stop {left : Expr} {ts : List Token}
    (h : ∀ t ∈ ts.head?, multiplicative? t.kind = none) :
    readFactors left ts = .ok (left, .whole ts) := by
  cases ts with
  | nil => rw [readFactors]
  | cons t after => rw [readFactors, h t rfl]

/-- The operators are those of sums and those of products, and products bind tighter. -/
theorem operator?_cases (kind : TokenKind) :
    (∃ op, operator? kind = some op ∧ additive? kind = some op ∧ multiplicative? kind = none ∧
      op.precedence = 4) ∨
    (∃ op, operator? kind = some op ∧ additive? kind = none ∧ multiplicative? kind = some op ∧
      op.precedence = 5) ∨
    operator? kind = none ∧ additive? kind = none ∧ multiplicative? kind = none := by
  cases kind with
  | mark m =>
    cases m with
    | plus => exact .inl ⟨.add, rfl, rfl, rfl, rfl⟩
    | minus => exact .inl ⟨.sub, rfl, rfl, rfl, rfl⟩
    | star => exact .inr (.inl ⟨.mul, rfl, rfl, rfl, rfl⟩)
    | slash => exact .inr (.inl ⟨.div, rfl, rfl, rfl, rfl⟩)
    | _ => exact .inr (.inr ⟨rfl, rfl, rfl⟩)
  | _ => exact .inr (.inr ⟨rfl, rfl, rfl⟩)

theorem precedence_lt {kind : TokenKind} {op : Operator} (h : operator? kind = some op) :
    op.precedence < 6 := by
  cases op <;> decide

/-- Behind a product neither star nor slash is left. -/
theorem multiplicative?_of_readFactors (left : Expr) :
    (ts : List Token) → {e : Expr} → {r : Rest ts} → readFactors left ts = .ok (e, r) →
      ∀ t ∈ r.1.head?, multiplicative? t.kind = none
  | [], _, _, h => by
    rw [readFactors] at h
    cases h
    rintro t ⟨⟩
  | t :: after, _, _, h => by
    rw [readFactors] at h
    split at h
    · next hnone =>
      cases h
      rintro u ⟨⟩
      exact hnone
    · next op hop =>
      split at h
      · cases h
      · next right r hright =>
        split at h
        · cases h
        · next whole s hwhole =>
          cases h
          have hle := r.length_le
          exact multiplicative?_of_readFactors (.binary op left right) r.1 hwhole
termination_by ts => ts.length

theorem multiplicative?_of_readProduct {ts : List Token} {e : Expr} {r : Rest ts}
    (h : readProduct ts = .ok (e, r)) : ∀ t ∈ r.1.head?, multiplicative? t.kind = none := by
  rw [readProduct] at h
  split at h
  · cases h
  · next left r hleft =>
    split at h
    · cases h
    · next whole s hwhole =>
      cases h
      exact multiplicative?_of_readFactors left r.1 hwhole

/-- With the highest floor no operator is taken. -/
theorem readExprFrom_six (ts : List Token) : readExprFrom 6 ts = readOperand ts := by
  rw [readExprFrom]
  cases readOperand ts with
  | error e => rfl
  | ok read =>
    obtain ⟨left, r⟩ := read
    dsimp only
    rw [readOperators_stop fun t _ op hop => precedence_lt hop]
    rfl

theorem readUnary_of_minus {t : Token} (ht : t.kind = .mark .minus) (after : List Token) :
    readUnary (t :: after) = match readUnary after with
      | .error e => .error e
      | .ok (e, r) => .ok (negated e, .tail t after r) := by
  rewrite [readUnary, ht]
  cases readUnary after <;> rfl

theorem readUnary_of_plus {t : Token} (ht : t.kind = .mark .plus) (after : List Token) :
    readUnary (t :: after) = match readUnary after with
      | .error e => .error e
      | .ok (e, r) => .ok (e, .tail t after r) := by
  rewrite [readUnary, ht]
  cases readUnary after <;> rfl

theorem readUnary_of_unsigned {t : Token} (hminus : t.kind ≠ .mark .minus)
    (hplus : t.kind ≠ .mark .plus) (after : List Token) :
    readUnary (t :: after) = readUnsigned (t :: after) := by
  rw [readUnary]
  split
  · next h => exact absurd h hminus
  · next h => exact absurd h hplus
  · rfl

theorem readUnsigned_of_name {t : Token} {after : List Token}
    (hopen : t.kind = .mark .leftParen → False) (hnumber : ∀ x, t.kind = .number x → False)
    (hstring : ∀ quote content, t.kind = .string quote content → False)
    (hnull : t.kind = .keyword .NULL → False) :
    readUnsigned (t :: after) =
      match t.name? with
      | none => .error (.complaint t (.unexpected t.text))
      | some name =>
        match after with
        | [] => .ok (.column ⟨none, name⟩, .tail t [] (.whole []))
        | u :: rest =>
          if u.kind = .mark .leftParen then
            match Function.ofName? name with
            | none => .error (.complaint u (.unknownFunction name))
            | some f =>
              match readSumArguments f rest with
              | .error e => .error e
              | .ok (call, r) => .ok (call, .tail t _ (.tail u rest r))
          else if u.kind = .mark .dot then
            match Reader.identifier rest with
            | .error e => .error e
            | .ok (column, r) =>
              .ok (.column ⟨some (Text.lower name), column⟩, .tail t _ (.tail u rest r))
          else .ok (.column ⟨none, name⟩, .tail t _ (.whole _)) := by
  rw [readUnsigned]
  split
  · next h => exact absurd h hopen
  · next h => exact absurd h (hnumber _)
  · next h => exact absurd h (hstring _ _)
  · next h => exact absurd h hnull
  · rfl

mutual

theorem readExprFrom_eq_readSum (ts : List Token) : readExprFrom 0 ts = readSum ts := by
  rw [readExprFrom_eq, readSum_eq, readProduct_eq, Reading.followedBy_assoc,
    readOperand_eq_readUnary ts]
  refine Reading.followedBy_congr fun left r _ => ?_
  have := r.length_le
  exact readOperators_eq_readTerms left r.1
termination_by 8 * ts.length + 4

theorem readExprFrom_eq_readProduct (ts : List Token) : readExprFrom 5 ts = readProduct ts := by
  rw [readExprFrom_eq, readProduct_eq, readOperand_eq_readUnary ts]
  refine Reading.followedBy_congr fun left r _ => ?_
  have := r.length_le
  exact readOperators_eq_readFactors left r.1
termination_by 8 * ts.length + 3

/-- With the lowest floor the operators of the product are taken first, then those of the sum. -/
theorem readOperators_eq_readTerms (left : Expr) :
    (ts : List Token) → readOperators 0 left ts = (readFactors left ts).followedBy readTerms
  | [] => by
    rw [readOperators_stop (by simp), readFactors_stop (by simp), Reading.whole_followedBy,
      readTerms_stop (by simp)]
  | t :: after => by
    rcases operator?_cases t.kind with ⟨op, hop, hadd, hmul, hprec⟩ | ⟨op, hop, hadd, hmul, hprec⟩ |
      ⟨hop, hadd, hmul⟩
    · rw [readOperators_cons left after hop (Nat.zero_le _), hprec,
        readExprFrom_eq_readProduct after, readFactors_stop (by rintro u ⟨⟩; exact hmul),
        Reading.whole_followedBy, readTerms_cons left after hadd]
      refine congrArg (Reading.behind t) (Reading.followedBy_congr fun right r hr => ?_)
      have := r.length_le
      rw [readOperators_eq_readTerms (.binary op left right) r.1,
        readFactors_stop (multiplicative?_of_readProduct hr), Reading.whole_followedBy]
    · rw [readOperators_cons left after hop (Nat.zero_le _), hprec, readExprFrom_six,
        readOperand_eq_readUnary after, readFactors_cons left after hmul,
        Reading.behind_followedBy, Reading.followedBy_assoc]
      refine congrArg (Reading.behind t) (Reading.followedBy_congr fun right r _ => ?_)
      have := r.length_le
      exact readOperators_eq_readTerms (.binary op left right) r.1
    · rw [readOperators_stop (by rintro u ⟨⟩; simp [hop]),
        readFactors_stop (by rintro u ⟨⟩; exact hmul), Reading.whole_followedBy,
        readTerms_stop (by rintro u ⟨⟩; exact hadd)]
termination_by ts => 8 * ts.length

theorem readOperators_eq_readFactors (left : Expr) :
    (ts : List Token) → readOperators 5 left ts = readFactors left ts
  | [] => by rw [readOperators, readFactors]
  | t :: after => by
    rcases operator?_cases t.kind with ⟨op, hop, -, hmul, hprec⟩ | ⟨op, hop, -, hmul, hprec⟩ |
      ⟨hop, -, hmul⟩
    · rw [readFactors_stop (by rintro u ⟨⟩; exact hmul)]
      refine readOperators_stop ?_
      rintro u ⟨⟩ op' hop'
      rw [hop] at hop'
      cases hop'
      rw [hprec]
      decide
    · rw [readOperators_cons left after hop (Nat.le_of_eq hprec.symm), hprec, readExprFrom_six,
        readOperand_eq_readUnary after, readFactors_cons left after hmul]
      refine congrArg (Reading.behind t) (Reading.followedBy_congr fun right r _ => ?_)
      have := r.length_le
      exact readOperators_eq_readFactors (.binary op left right) r.1
    · rw [readFactors_stop (by rintro u ⟨⟩; exact hmul)]
      refine readOperators_stop ?_
      rintro u ⟨⟩ op hop'
      rw [hop] at hop'
      cases hop'
termination_by ts => 8 * ts.length

theorem readOperand_eq_readUnary : (ts : List Token) → readOperand ts = readUnary ts
  | [] => by rw [readOperand, readUnary, readUnsigned]
  | t :: after => by
    by_cases hminus : t.kind = .mark .minus
    · rw [readUnary_of_minus hminus, readOperand, hminus]
      rewrite [readOperand_eq_readUnary after]
      cases readUnary after <;> rfl
    by_cases hplus : t.kind = .mark .plus
    · rw [readUnary_of_plus hplus, readOperand, hplus]
      rewrite [readOperand_eq_readUnary after]
      cases readUnary after <;> rfl
    rw [readUnary_of_unsigned hminus hplus, readOperand]
    split
    · next h => exact absurd h hminus
    · next h => exact absurd h hplus
    · next h =>
      rw [readUnsigned, h]
      rewrite [readExprFrom_eq_readSum after]
      cases readSum after <;> rfl
    · next h => rw [readUnsigned, h]
    · next h => rw [readUnsigned, h]
    · next h => rw [readUnsigned, h]
    · next hopen hnumber hstring hnull =>
      rw [readUnsigned_of_name hopen hnumber hstring hnull]
      cases t.name? with
      | none => rfl
      | some name =>
        cases after with
        | nil => rfl
        | cons u rest =>
          dsimp only
          by_cases hcall : u.kind = .mark .leftParen
          · rewrite [if_pos hcall, if_pos hcall]
            cases Function.ofName? name with
            | none => rfl
            | some f =>
              dsimp only
              rewrite [readArguments_eq_readSumArguments f rest]
              cases readSumArguments f rest <;> rfl
          · exact (if_neg hcall).trans (if_neg hcall).symm
termination_by ts => 8 * ts.length + 2

theorem readArguments_eq_readSumArguments (f : Function) (ts : List Token) :
    readArguments f ts = readSumArguments f ts := by
  rw [readArguments, readSumArguments]
  obtain ⟨distinct, start⟩ := readDistinct f ts
  have hle := start.length_le
  dsimp only
  rewrite [readArgumentList_eq_readSumArgumentList f start.1]
  cases readSumArgumentList f start.1 <;> rfl
termination_by 8 * ts.length + 7

theorem readArgumentList_eq_readSumArgumentList (f : Function) :
    (ts : List Token) → readArgumentList f ts = readSumArgumentList f ts
  | [] => by rw [readArgumentList, readSumArgumentList, readExprs_eq_readSums []]
  | t :: after => by
    rw [readArgumentList, readSumArgumentList, readExprs_eq_readSums (t :: after)]
termination_by ts => 8 * ts.length + 6

theorem readExprs_eq_readSums (ts : List Token) : readExprs ts = readSums ts := by
  rw [readExprs, readSums, readExprFrom_eq_readSum ts]
  cases readSum ts with
  | error e => rfl
  | ok read =>
    obtain ⟨e, rest, hrest⟩ := read
    cases rest with
    | nil => rfl
    | cons t after =>
      have hlt : after.length < ts.length := by
        have hle := hrest.length_le
        rw [List.length_cons] at hle
        omega
      dsimp only
      rewrite [readExprs_eq_readSums after]
      cases readSums after <;> rfl
termination_by 8 * ts.length + 5

end

end SqlEngine.Grammar
