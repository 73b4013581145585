import SqlEngine.Grammar.Definition
import SqlEngine.Proofs.Cursor.Tokens

/-!
# Column definitions by position

A definition is first passed over, so that the range of its tokens is known, and then looked at
token by token. Only the first of these steps moves the position.
-/
namespace SqlEngine.Cursor

open Grammar SqlEngine.Cursor.Parser

variable {α β : Type} {sql : String} {list : TokenList} {ts after taken rest : List Token}
  {t : Token} {limit : Nat}

section Outcomes

/-- One outcome after another, with nothing taken from the tokens. -/
theorem Tracks.settled {m : Parser α} {f : α → Parser β} {x : Except Refusal α}
    {next : α → Except Refusal β} (h : Tracks sql list m ts (settle x ts))
    (hf : ∀ a, Tracks sql list (f a) ts (settle (next a) ts)) :
    Tracks sql list (m >>= f) ts (settle (x >>= next) ts) := by
  cases x with
  | error e => exact h.andThen (fun e he => by cases he; rfl) fun _ _ hr => by cases hr
  | ok a =>
    refine h.andThen (fun _ he => by cases he) ?_
    rintro _ _ ⟨⟩
    exact hf a

theorem tracks_settled (a : α) : Tracks sql list (pure a) ts (settle (.ok a) ts) :=
  tracks_value a rfl

end Outcomes

section Range

/-- What is left behind so many tokens. -/
def dropped (n : Nat) (ts : List Token) : Rest ts := ⟨ts.drop n, ts.drop_suffix n⟩

/-- What is left behind tokens that are passed over. -/
def passed (ts : List Token) : Except Refusal (List Token) → Reading Unit ts
  | .error e => .error e
  | .ok taken => .ok ((), dropped taken.length ts)

/-- One token more is passed over. -/
theorem Tracks.passed_cons {m : Parser Unit} {x : Except Refusal (List Token)}
    (h : Tracks sql list m after (passed after x)) :
    Tracks sql list m after (passed (t :: after) (x.map (t :: ·))) := by
  refine h.congr ?_
  cases x <;> rfl

theorem definitionTokens_other {depth : Nat} {started : Bool}
    (hleft : t.kind = .mark .leftParen → False) (hright : t.kind = .mark .rightParen → False)
    (hcomma : t.kind = .mark .comma → False) (hsemicolon : t.kind = .mark .semicolon → False) :
    definitionTokens depth started (t :: after) =
      (definitionTokens depth true after).map (t :: ·) := by
  rw [definitionTokens]
  split
  · next heq => exact absurd heq hleft
  · next heq => exact absurd heq hright
  · next heq => exact absurd heq hcomma
  · next heq => exact absurd heq hsemicolon
  · rfl

theorem definitionTokens_prefix {depth : Nat} {started : Bool}
    (h : definitionTokens depth started ts = .ok taken) : taken <+: ts := by
  induction ts generalizing depth started taken with
  | nil =>
    rw [definitionTokens] at h
    split at h <;> cases h
    exact List.prefix_rfl
  | cons t after ih =>
    have hgo : ∀ {depth}, (definitionTokens depth true after).map (t :: ·) = .ok taken →
        taken <+: t :: after := by
      intro depth hmap
      cases hmore : definitionTokens depth true after with
      | error e => rw [hmore] at hmap; cases hmap
      | ok more =>
        rw [hmore] at hmap
        cases hmap
        exact List.cons_prefix_cons.2 ⟨rfl, ih hmore⟩
    rw [definitionTokens] at h
    repeat' split at h
    all_goals first
      | exact hgo h
      | cases h <;> exact List.nil_prefix

/-- Tokens have been passed over if the position lies behind the start. -/
theorem tracks_skipDefinition (hts : ts <:+ list.tokens) {start : Nat}
    (hstart : start ≤ place list ts) (depth : Nat) :
    Tracks sql list (skipDefinition start depth) ts
      (passed ts (definitionTokens depth (start < place list ts) ts)) := by
  induction ts generalizing depth with
  | nil =>
    rw [definitionTokens]
    refine Tracks.call ((gives_current hts).tracks ((gives_position []).tracks ?_))
    split
    · exact tracks_value () rfl
    · exact tracks_fail hts _
  | cons t after ih =>
    have hafter := suffix_tail hts
    have hadvance : Gives sql list advance (t :: after) () after := gives_advance hts
    have hplace := place_tail hts
    have hgo : ∀ depth, Tracks sql list (skipDefinition start depth) after
        (passed (t :: after) ((definitionTokens depth true after).map (t :: ·))) := by
      intro depth
      have hskip := ih hafter (by omega) depth
      rw [decide_eq_true (by omega)] at hskip
      exact hskip.passed_cons
    refine Tracks.call ((gives_current hts).tracks ?_)
    dsimp only [ahead, Placed.ofToken]
    split
    · next hkind =>
      rw [definitionTokens, Option.some_inj.1 hkind]
      exact hadvance.tracks (hgo (depth + 1))
    · next hkind =>
      rw [definitionTokens, Option.some_inj.1 hkind]
      cases depth with
      | zero => exact tracks_value () rfl
      | succ depth => exact (gives_lower depth _).tracks (hadvance.tracks (hgo depth))
    · next hkind =>
      rw [definitionTokens, Option.some_inj.1 hkind]
      dsimp only
      split
      · exact tracks_value () rfl
      · exact hadvance.tracks (hgo depth)
    · next hkind =>
      rw [definitionTokens, Option.some_inj.1 hkind]
      refine (gives_position _).tracks ?_
      dsimp only
      split
      · exact tracks_value () rfl
      · exact tracks_fail hts _
    · next hkind => cases hkind
    · next hleft hright hcomma hsemicolon _ =>
      rw [definitionTokens_other (hleft ∘ congrArg some) (hright ∘ congrArg some)
        (hcomma ∘ congrArg some) (hsemicolon ∘ congrArg some)]
      exact hadvance.tracks (hgo depth)

/-- The tokens between two positions. -/
theorem gives_tokensBetween (hts : taken ++ rest <:+ list.tokens) (here : List Token) :
    Gives sql list (tokensBetween (place list (taken ++ rest)) (place list rest)) here
      (taken.map .ofToken) here := by
  obtain ⟨front, hfront⟩ := hts
  have hstart : place list (taken ++ rest) = front.length := by simp [place, ← hfront]
  have hstop : place list rest = front.length + taken.length := by
    simp only [place, ← hfront, List.length_append]
    omega
  have hle := place_le list rest
  rw [hstart, hstop] at *
  refine (gives_source here).bind ?_
  dsimp only
  rw [length_tokens, if_pos ⟨Nat.le_add_right .., by omega⟩]
  have hpiece : ((Source.ofTokens sql list).tokens.take (front.length + taken.length)).drop
      front.length = taken.map .ofToken := by
    simp [Source.ofTokens, ← hfront, List.take_append]
  rw [hpiece]
  exact gives_pure _ here

end Range

section Tokens

theorem hasPair_map (first second : TokenKind) (ts : List Token) :
    Parser.hasPair first second (ts.map .ofToken) = Grammar.hasPair first second ts := by
  induction ts with
  | nil => rfl
  | cons t rest ih =>
    cases rest with
    | nil => rfl
    | cons u rest =>
      rw [Grammar.hasPair, ← ih]
      simp [Parser.hasPair, Placed.ofToken]

theorem dropWhile_map (ts : List Token) :
    (ts.map Placed.ofToken).dropWhile (fun t => t.kind ≠ some (.mark .leftParen)) =
      (ts.dropWhile fun t => t.kind ≠ .mark .leftParen).map .ofToken := by
  rw [List.dropWhile_map]
  congr 2
  funext t
  simp [Placed.ofToken]

variable (h : Lexer.tokens sql = .ok list)
include h

theorem gives_names (hmem : ∀ t ∈ taken, t ∈ list.tokens) (here : List Token) :
    Gives sql list (names (taken.map .ofToken)) here (taken.filterMap Token.name?) here := by
  induction taken with
  | nil => exact gives_pure [] here
  | cons t rest ih =>
    have ht := hmem t List.mem_cons_self
    have hrest := ih fun u hu => hmem u (List.mem_cons_of_mem t hu)
    refine (gives_isName h ht here).bind ?_
    cases hname : t.name? with
    | none =>
      rw [List.filterMap_cons_none hname]
      exact hrest
    | some name =>
      rw [List.filterMap_cons_some hname]
      exact (gives_nameText h ht hname here).bind (hrest.bind (gives_pure _ here))

theorem gives_typeWord (hmem : ∀ t ∈ taken, t ∈ list.tokens) (here : List Token) :
    Gives sql list (Parser.typeWord (taken.map .ofToken)) here (Grammar.typeWord taken) here := by
  match taken with
  | [] | [_] => exact gives_pure "TEXT" here
  | _ :: t :: _ =>
    have htext := gives_tokenText h (hmem t (by simp)) here
    rw [List.map_cons, List.map_cons, Parser.typeWord, Grammar.typeWord]
    dsimp only [Placed.ofToken] at htext ⊢
    cases hkind : t.kind with
    | identifier name =>
      rw [hkind] at htext
      exact htext
    | _ => exact gives_pure "TEXT" here

theorem tracks_columnDefinition {first : Token} {more : List Token}
    (hmem : ∀ t ∈ first :: more, t ∈ list.tokens)
    (hprimary : first.kind = .keyword .PRIMARY → False)
    (hunique : first.kind = .keyword .UNIQUE → False)
    (hforeign : first.kind = .keyword .FOREIGN → False)
    (hcheck : first.kind = .keyword .CHECK → False)
    (hconstraint : first.kind = .keyword .CONSTRAINT → False) (hts : rest <:+ list.tokens) :
    Tracks sql list (columnDefinition (.ofToken first) ((first :: more).map .ofToken)) rest
      (settle (Grammar.definitionOf (first :: more) rest.head?) rest) := by
  have hfirst := hmem first List.mem_cons_self
  rw [Grammar.definitionOf]
  split
  · next heq => exact absurd heq hprimary
  · next heq => exact absurd heq hunique
  · next heq => exact absurd heq hforeign
  · next heq => exact absurd heq hcheck
  · next heq => exact absurd heq hconstraint
  refine (gives_isName h hfirst rest).tracks ?_
  cases hname : first.name? with
  | none => exact tracks_failAt hts (some first) _
  | some name =>
    rw [hasPair_map, hasPair_map]
    refine (gives_nameText h hfirst hname rest).tracks ?_
    exact (gives_typeWord h hmem rest).tracks (tracks_settled _)

theorem tracks_definitionOf (hts : rest <:+ list.tokens) (hmem : ∀ t ∈ taken, t ∈ list.tokens) :
    Tracks sql list (Parser.definitionOf (taken.map .ofToken)) rest
      (settle (Grammar.definitionOf taken rest.head?) rest) := by
  cases taken with
  | nil => exact tracks_fail hts _
  | cons first more =>
    rw [List.map_cons, Parser.definitionOf]
    split
    · next hkind =>
      rw [Grammar.definitionOf, Option.some_inj.1 hkind, ← List.map_cons, dropWhile_map]
      refine (gives_names h (fun t ht => hmem t ?_) rest).tracks (tracks_settled _)
      exact (List.dropWhile_suffix _).subset ht
    iterate 4
      · next hkind =>
        rw [Grammar.definitionOf, Option.some_inj.1 hkind]
        exact tracks_settled _
    · next hprimary hunique hforeign hcheck hconstraint =>
      exact tracks_columnDefinition h hmem (hprimary ∘ congrArg some) (hunique ∘ congrArg some)
        (hforeign ∘ congrArg some) (hcheck ∘ congrArg some) (hconstraint ∘ congrArg some) hts

omit h in
/-- The position has gone past the tokens of the definition. -/
theorem tracks_definitionRange (hts : ts <:+ list.tokens) :
    Tracks sql list definitionRange ts
      ((passed ts (definitionTokens 0 false ts)).followedBy fun _ us =>
        .ok ((place list ts, place list us), .whole us)) := by
  have hskip : Tracks sql list _ ts _ := tracks_skipDefinition hts (Nat.le_refl _) 0
  rw [decide_eq_false (Nat.lt_irrefl _)] at hskip
  refine (gives_position ts).tracks (hskip.followedBy fun _ r _ => ?_)
  exact (gives_position r.1).tracks (tracks_value _ rfl)

theorem follows_definition : Follows sql list limit definition readDefinition := by
  intro ts hts hlimit
  have hrange : Tracks sql list _ ts _ := tracks_definitionRange hts
  rw [readDefinition]
  cases htaken : definitionTokens 0 false ts with
  | error e =>
    rw [htaken] at hrange
    exact hrange.andThen (fun e he => by cases he; rfl) fun _ _ hr => by cases hr
  | ok taken =>
    rw [htaken] at hrange
    obtain ⟨rest, rfl⟩ := definitionTokens_prefix htaken
    have hmem : ∀ t ∈ taken, t ∈ list.tokens := fun t ht => hts.subset (List.mem_append_left _ ht)
    have hdefinition := tracks_definitionOf h ((List.suffix_append taken rest).trans hts) hmem
    refine hrange.andThen (fun _ he => by cases he) ?_
    rintro _ _ ⟨⟩
    simp only [Rest.trans, Rest.whole, dropped, List.drop_left]
    refine (gives_tokensBetween hts rest).tracks (hdefinition.congr ?_)
    cases Grammar.definitionOf taken rest.head? <;> rfl

end Tokens

section Body

variable (h : Lexer.tokens sql = .ok list)

theorem follows_add (table : String) (body : Body) (definition : Definition) :
    Follows sql list limit (add table body definition) (settle (body.add table definition)) := by
  intro ts hts _
  cases definition with
  | column column =>
    rw [add, Body.add]
    split
    · exact tracks_refuse hts (.schema (.duplicateColumn column.name table))
    · exact tracks_value _ rfl
  | primaryKey names => exact tracks_value _ rfl
  | otherConstraint => exact tracks_value body rfl

include h in
theorem follows_definitions (table : String) (body : Body) :
    Follows sql list limit (definitions table body) (readBody table body) := by
  induction limit using Nat.strongRecOn generalizing body with
  | ind limit ih =>
    intro ts hts hlimit
    rw [readBody]
    refine Tracks.call ?_
    refine (follows_definition h ts hts hlimit).andThen (fun e he => by rw [he]) ?_
    rintro definition ⟨rest, hrest⟩ hr
    rw [hr]
    have hrest' := hrest.trans hts
    have hadded : Tracks sql list _ rest _ :=
      follows_add table body definition rest hrest' (Nat.le_refl _)
    dsimp only
    cases hadd : body.add table definition with
    | error e =>
      rw [hadd] at hadded
      exact hadded.andThen (fun e he => by cases he; rfl) fun _ _ hr => by cases hr
    | ok added =>
      rw [hadd] at hadded
      refine hadded.andThen (fun _ he => by cases he) ?_
      rintro added r ⟨⟩
      cases rest with
      | nil =>
        refine (gives_matchToken_false hrest' (ahead_kind_nil _)).tracks ?_
        exact tracks_value added rfl
      | cons t after =>
        dsimp only
        split
        · next ht =>
          have hle := hrest.length_le
          rw [List.length_cons] at hle
          have hmore := ih after.length (by omega) added after (suffix_tail hrest') (Nat.le_refl _)
          refine (gives_matchToken_true hrest' ht).tracks (hmore.congr ?_)
          cases readBody table added after <;> rfl
        · next ht =>
          refine (gives_matchToken_false hrest' (mt ahead_kind_cons.1 ht)).tracks ?_
          exact tracks_value added rfl

theorem tracks_markKey (hts : ts <:+ list.tokens) (name : String) (columns : List Column) :
    Tracks sql list (Parser.markKey name columns) ts
      (settle (Grammar.markKey name columns) ts) := by
  induction columns with
  | nil => exact tracks_refuse hts (.schema (.unknownColumn name))
  | cons column rest ih =>
    rw [Parser.markKey, Grammar.markKey]
    split
    · exact tracks_value _ rfl
    · have hmap : (Grammar.markKey name rest).map (column :: ·) =
          Grammar.markKey name rest >>= fun marked => .ok (column :: marked) := by
        cases Grammar.markKey name rest <;> rfl
      rw [hmap]
      exact ih.settled fun marked => tracks_settled (column :: marked)

theorem follows_markKeys (columns : List Column) (key : List String) :
    Follows sql list limit (Parser.markKeys columns key)
      (settle (Grammar.markKeys columns key)) := by
  intro ts hts hlimit
  induction key generalizing columns with
  | nil => exact tracks_value columns rfl
  | cons name rest ih => exact (tracks_markKey hts name columns).settled fun marked => ih marked

end Body
end SqlEngine.Cursor
