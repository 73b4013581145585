import SqlEngine.Proofs.Cursor.Tokens

/-!
# Expressions by position

Behind a sign an expression is parsed with a floor above all operators, which leaves nothing but the
operand. The parsers call each other, so it is shown for all of them at once that they follow their
readers, by the number of tokens that are left.
-/
namespace SqlEngine.Cursor

open Grammar SqlEngine.Cursor.Parser

variable {sql : String} {list : TokenList} {ts after : List Token} {t : Token} {limit : Nat}

/-- The parsers of expressions follow the readers wherever at most `limit` tokens are left. -/
structure ExprFollows (sql : String) (list : TokenList) (limit : Nat) : Prop where
  expr : ∀ floor, Follows sql list limit (expr floor) (readExprFrom floor)
  operators : ∀ floor left, Follows sql list limit (operators floor left) (readOperators floor left)
  operand : Follows sql list limit prefixExpr readOperand
  arguments : ∀ f, Follows sql list limit (argumentList f) (readArgumentList f)
  exprs : Follows sql list limit exprList readExprs

/-- No operator binds as tightly as what stands behind a sign. -/
theorem readExprFrom_sign (ts : List Token) : readExprFrom 10 ts = readOperand ts := by
  have hlow : ∀ op : Operator, op.precedence < 10 := fun op => by cases op <;> decide
  rw [readExprFrom]
  cases readOperand ts with
  | error e => rfl
  | ok read =>
    obtain ⟨left, r⟩ := read
    dsimp only
    rw [readOperators_stop fun t _ op _ => hlow op]
    rfl

theorem readArguments_eq (f : Function) (ts : List Token) :
    readArguments f ts =
      (((readArgumentList f (readDistinct f ts).2.1).followedBy fun es us =>
        (Reader.mark .rightParen us).followedBy fun _ vs =>
          settle (callOf f (readDistinct f ts).1 es) vs).under (readDistinct f ts).2) := by
  rw [readArguments]
  obtain ⟨distinct, start⟩ := readDistinct f ts
  dsimp only
  cases readArgumentList f start.1 with
  | error e => rfl
  | ok read =>
    obtain ⟨es, r⟩ := read
    dsimp only [Reading.followedBy]
    cases Reader.mark .rightParen r.1 with
    | error e => rfl
    | ok closed =>
      dsimp only
      cases callOf f distinct es <;> rfl

section Expr

variable (h : Lexer.tokens sql = .ok list) (ih : ∀ less < limit, ExprFollows sql list less)

theorem follows_checkedCall (f : Function) (distinct : Bool) (es : List Expr) :
    Follows sql list limit (checkedCall f distinct es) (settle (callOf f distinct es)) := by
  intro ts hts _
  rw [checkedCall, callOf]
  split
  · exact tracks_value _ rfl
  · exact tracks_refuse hts (.argumentCount f es.length)

include ih in
theorem follows_operators (floor : Nat) (left : Expr) :
    Follows sql list limit (operators floor left) (readOperators floor left) := by
  intro ts hts hlimit
  refine Tracks.call ((gives_current hts).tracks ?_)
  cases ts with
  | nil =>
    rw [readOperators_stop (by simp)]
    exact tracks_value left rfl
  | cons t after =>
    rw [ahead_kind_bind]
    cases hop : operator? t.kind with
    | none =>
      rw [readOperators_stop (by simp [hop])]
      exact tracks_value left rfl
    | some op =>
      dsimp only
      split
      · next hlow =>
        rw [readOperators_stop (by simp [hop, hlow])]
        exact tracks_value left rfl
      · next hlow =>
        have hless := ih after.length hlimit
        have hafter := suffix_tail hts
        rw [readOperators_cons left after hop (Nat.not_lt.1 hlow)]
        refine (gives_advance hts).tracks (Tracks.behind ?_)
        refine (hless.expr _ after hafter (Nat.le_refl _)).followedBy fun right r _ => ?_
        exact hless.operators floor (.binary op left right) r.1 (r.2.trans hafter) r.length_le

include ih in
theorem tracks_expr (floor : Nat) (hts : t :: after <:+ list.tokens)
    (hlimit : (t :: after).length ≤ limit) :
    Tracks sql list (expr floor) after (readExprFrom floor after) :=
  (ih after.length hlimit).expr floor after (suffix_tail hts) (Nat.le_refl _)

/-- The word DISTINCT is taken only in front of the arguments of COUNT. -/
theorem gives_distinctWord (f : Function) (hts : ts <:+ list.tokens) :
    Gives sql list (distinctWord f) ts (readDistinct f ts).1 (readDistinct f ts).2.1 := by
  rw [distinctWord]
  cases ts with
  | nil =>
    split
    · exact gives_matchToken_false hts (ahead_kind_nil _)
    · exact gives_pure false []
  | cons t after =>
    rw [readDistinct]
    by_cases hcount : f = .count
    · rw [if_pos hcount]
      by_cases ht : t.kind = .keyword .DISTINCT
      · simp only [hcount, ht, decide_true, Bool.and_self, if_pos]
        exact gives_matchToken_true hts ht
      · simp only [hcount, ht, decide_true, decide_false, Bool.and_false]
        exact gives_matchToken_false hts (mt ahead_kind_cons.1 ht)
    · simp only [hcount, decide_false, Bool.false_and]
      exact gives_pure false _

include h ih in
/-- A call is read from its opening bracket on. -/
theorem tracks_functionCall (name : String) (hts : t :: after <:+ list.tokens)
    (ht : t.kind = .mark .leftParen) (hlimit : (t :: after).length ≤ limit) :
    Tracks sql list (functionCall name) (t :: after)
      (match Function.ofName? name with
      | none => .error (.complaint t (.unknownFunction name))
      | some f => readArguments f after) := by
  have hafter := suffix_tail hts
  rw [functionCall]
  cases Function.ofName? name with
  | none => exact tracks_fail hts _
  | some f =>
    have hopen : Gives sql list (mark .leftParen) (t :: after) () after :=
      (gives_matchToken_true hts ht).bind (gives_pure () after)
    dsimp only
    rw [readArguments_eq]
    generalize hstart : (readDistinct f after).2 = start
    have hdistinct : Gives sql list (distinctWord f) after (readDistinct f after).1 start.1 :=
      hstart ▸ gives_distinctWord f hafter
    have hrest := start.2.trans hafter
    have harguments := (ih after.length hlimit).arguments f start.1 hrest start.length_le
    refine hopen.tracks (hdistinct.tracks (Tracks.congr ?_ (bare_under _).symm))
    refine harguments.followedBy fun es r _ => ?_
    have hclose := follows_mark h .rightParen r.1 (r.2.trans hrest) (Nat.le_refl _)
    refine hclose.followedBy fun _ s _ => ?_
    exact follows_checkedCall f _ es s.1 (s.2.trans (r.2.trans hrest)) (Nat.le_refl _)

include h ih in
/-- An operand that is neither a literal nor in brackets nor behind a sign is a call or a column. -/
theorem tracks_named (hminus : t.kind = .mark .minus → False)
    (hplus : t.kind = .mark .plus → False) (hopen : t.kind = .mark .leftParen → False)
    (hnumber : ∀ x, t.kind = .number x → False)
    (hstring : ∀ quote content, t.kind = .string quote content → False)
    (hnull : t.kind = .keyword .NULL → False) (hts : t :: after <:+ list.tokens)
    (hlimit : (t :: after).length ≤ limit) :
    Tracks sql list named (t :: after) (readOperand (t :: after)) := by
  have hafter := suffix_tail hts
  rw [readOperand]
  split
  · next heq => exact absurd heq hminus
  · next heq => exact absurd heq hplus
  · next heq => exact absurd heq hopen
  · next heq => exact absurd heq (hnumber _)
  · next heq => exact absurd heq (hstring _ _)
  · next heq => exact absurd heq hnull
  rw [named]
  refine (gives_current hts).tracks ((gives_isName h (mem_of_suffix hts) _).tracks ?_)
  cases hname : t.name? with
  | none => exact (gives_currentText h hts).tracks (tracks_fail hts _)
  | some name =>
    refine (gives_identifier h hts hname).tracks ((gives_current hafter).tracks ?_)
    cases after with
    | nil =>
      rw [if_neg (ahead_kind_nil _)]
      exact (gives_matchToken_false hafter (ahead_kind_nil _)).tracks (tracks_value _ rfl)
    | cons u rest =>
      dsimp only
      by_cases hcall : u.kind = .mark .leftParen
      · rw [if_pos (ahead_kind_cons.2 hcall), if_pos hcall]
        have hless : (u :: rest).length ≤ limit := Nat.le_of_succ_le hlimit
        refine (tracks_functionCall h ih name hafter hcall hless).congr ?_
        cases Function.ofName? name with
        | none => rfl
        | some f =>
          dsimp only
          cases readArguments f rest <;> rfl
      · rw [if_neg (mt ahead_kind_cons.1 hcall), if_neg hcall]
        split
        · next hdot =>
          have hrest := suffix_tail hafter
          refine (gives_matchToken_true hafter hdot).tracks ?_
          refine (follows_identifier h rest hrest (Nat.le_refl _)).andThen ?_ ?_
          · intro e he
            rw [he]
          · intro column r hr
            rw [hr]
            exact tracks_value _ rfl
        · next hdot =>
          refine (gives_matchToken_false hafter (mt ahead_kind_cons.1 hdot)).tracks ?_
          exact tracks_value _ rfl

include h ih in
theorem follows_prefixExpr : Follows sql list limit prefixExpr readOperand := by
  intro ts hts hlimit
  rw [prefixExpr]
  refine (gives_current hts).tracks ?_
  cases ts with
  | nil =>
    rw [readOperand]
    change Tracks sql list named [] _
    rw [named]
    refine (gives_current hts).tracks ((gives_startsName h hts).tracks ?_)
    exact (gives_currentText h hts).tracks (tracks_fail hts _)
  | cons t after =>
    have hafter := suffix_tail hts
    have hadvance : Gives sql list advance (t :: after) () after := gives_advance hts
    dsimp only [ahead, Placed.ofToken]
    split
    · next hkind =>
      rw [readOperand, Option.some_inj.1 hkind, ← readExprFrom_sign]
      refine hadvance.tracks ((tracks_expr ih 10 hts hlimit).andThen (fun e he => by rw [he]) ?_)
      intro e r hr
      rw [hr]
      exact tracks_value (negated e) rfl
    · next hkind =>
      rw [readOperand, Option.some_inj.1 hkind, ← readExprFrom_sign]
      refine hadvance.tracks ((tracks_expr ih 10 hts hlimit).congr ?_)
      cases readExprFrom 10 after <;> rfl
    · next hkind =>
      rw [readOperand, Option.some_inj.1 hkind]
      refine hadvance.tracks ((tracks_expr ih 0 hts hlimit).andThen (fun e he => by rw [he]) ?_)
      intro e r hr
      rw [hr]
      refine (follows_mark h .rightParen r.1 (r.2.trans hafter) (Nat.le_refl _)).andThen ?_ ?_
      · intro e' he
        simp only [he]
      · intro _ s hs
        simp only [hs]
        exact tracks_value e rfl
    · next x hkind =>
      rw [readOperand, Option.some_inj.1 hkind]
      exact hadvance.tracks (tracks_value _ rfl)
    · next quote content hkind =>
      rw [readOperand, Option.some_inj.1 hkind]
      exact hadvance.tracks (tracks_value _ rfl)
    · next hkind =>
      rw [readOperand, Option.some_inj.1 hkind]
      exact hadvance.tracks (tracks_value _ rfl)
    · next hminus hplus hopen hnumber hstring hnull =>
      exact tracks_named h ih (hminus ∘ congrArg some) (hplus ∘ congrArg some)
        (hopen ∘ congrArg some) (fun x => hnumber x ∘ congrArg some)
        (fun quote content => hstring quote content ∘ congrArg some) (hnull ∘ congrArg some) hts
        hlimit

theorem follows_argumentList (f : Function) (hexprs : Follows sql list limit exprList readExprs) :
    Follows sql list limit (argumentList f) (readArgumentList f) := by
  intro ts hts hlimit
  rw [argumentList]
  refine (gives_current hts).tracks ?_
  cases ts with
  | nil =>
    rw [readArgumentList, if_neg (ahead_kind_nil _)]
    refine (gives_current hts).tracks ?_
    rw [if_neg (ahead_kind_nil _)]
    exact hexprs [] hts hlimit
  | cons t after =>
    rw [readArgumentList]
    by_cases hstar : t.kind = .mark .star
    · rw [if_pos (ahead_kind_cons.2 hstar), if_pos hstar]
      by_cases hcount : f = .count
      · rw [if_neg (not_not_intro hcount), if_pos hcount]
        exact (gives_advance hts).tracks (tracks_value [Expr.star] rfl)
      · rw [if_pos hcount, if_neg hcount]
        exact tracks_fail hts _
    · rw [if_neg (mt ahead_kind_cons.1 hstar), if_neg hstar]
      refine (gives_current hts).tracks ?_
      by_cases hclose : t.kind = .mark .rightParen
      · rw [if_pos (ahead_kind_cons.2 hclose), if_pos hclose]
        exact tracks_value [] rfl
      · rw [if_neg (mt ahead_kind_cons.1 hclose), if_neg hclose]
        exact hexprs (t :: after) hts hlimit

include ih in
theorem follows_exprList (hexpr : Follows sql list limit (expr 0) (readExprFrom 0)) :
    Follows sql list limit exprList readExprs := by
  intro ts hts hlimit
  rw [readExprs]
  refine Tracks.call ?_
  refine (hexpr ts hts hlimit).andThen (fun e he => by rw [he]) ?_
  rintro e ⟨rest, hrest⟩ hr
  rw [hr]
  have hrest' := hrest.trans hts
  cases rest with
  | nil => exact (gives_matchToken_false hrest' (ahead_kind_nil _)).tracks (tracks_value [e] rfl)
  | cons t after =>
    dsimp only
    split
    · next ht =>
      refine (gives_matchToken_true hrest' ht).tracks ?_
      have hle := hrest.length_le
      rw [List.length_cons] at hle
      have hmore := (ih after.length (by omega)).exprs after (suffix_tail hrest') (Nat.le_refl _)
      refine hmore.andThen ?_ ?_
      · intro e' he
        rw [he]
      · intro es s hs
        rw [hs]
        exact tracks_value (e :: es) rfl
    · next ht =>
      exact (gives_matchToken_false hrest' (mt ahead_kind_cons.1 ht)).tracks (tracks_value [e] rfl)

end Expr

/-- The parsers of expressions follow their readers. -/
theorem exprFollows (h : Lexer.tokens sql = .ok list) (limit : Nat) :
    ExprFollows sql list limit := by
  induction limit using Nat.strongRecOn with
  | ind limit ih =>
    have hoperand := follows_prefixExpr h ih
    have hexpr : ∀ floor, Follows sql list limit (expr floor) (readExprFrom floor) := by
      intro floor ts hts hlimit
      rw [readExprFrom_eq]
      refine Tracks.call ?_
      refine (hoperand ts hts hlimit).followedBy fun left r _ => ?_
      exact follows_operators ih floor left r.1 (r.2.trans hts) (Nat.le_trans r.length_le hlimit)
    have hexprs := follows_exprList ih (hexpr 0)
    exact ⟨hexpr, follows_operators ih, hoperand, fun f => follows_argumentList f hexprs, hexprs⟩

theorem follows_columnRef (h : Lexer.tokens sql = .ok list) :
    Follows sql list limit columnRef readColumnRef :=
  (follows_identifier h).bind fun first => (follows_matchToken _).bind fun dot => by
    cases dot with
    | true => exact (follows_identifier h).bind fun _ => follows_pure _
    | false => exact follows_pure _

end SqlEngine.Cursor
