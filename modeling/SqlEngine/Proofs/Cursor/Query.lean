import SqlEngine.Proofs.Cursor.Condition
import SqlEngine.Proofs.Grammar.ReadBack

/-!
# Queries by position

A select item keeps the text that it is written as. It is sliced from where the item begins to where
the token before the present one ends, so it matters that an expression takes one token at least.
-/
namespace SqlEngine.Cursor

open Grammar SqlEngine.Cursor.Parser

variable {α β : Type} {sql : String} {list : TokenList} {ts after : List Token} {t : Token}
  {limit : Nat}

section Looking

/-- What is said of the tokens ahead, by a reader and by a parser that stays where it is. -/
theorem tracks_ahead {m : Parser β} {g : List Token → Reader β}
    (h : Tracks sql list m ts (g ts ts)) : Tracks sql list m ts ((Reader.ahead >>= g) ts) := by
  have hread : Reader.ahead ts = .ok (ts, .whole ts) := rfl
  rw [bind_eq_followedBy]
  exact h.congr (bare_followedBy hread g).symm

/-- Beyond the last token nothing but the end of the text is seen. -/
theorem gives_peek (hts : ts <:+ list.tokens) (distance : Nat) :
    Gives sql list (peek distance) ts (ahead list (ts.drop distance)) ts := by
  have hlast : Gives sql list (lower (Source.ofTokens sql list).tokens.length) ts
      list.tokens.length ts := by
    rw [length_tokens]
    exact gives_lower _ ts
  have hplace : min (place list ts + distance) list.tokens.length =
      place list (ts.drop distance) := by
    have := hts.length_le
    simp only [place, List.length_drop]
    omega
  refine (gives_source ts).bind (hlast.bind ((gives_position ts).bind (gives_tokenAt ?_ ts)))
  rw [hplace]
  exact getElem?_place ((List.drop_suffix _ _).trans hts)

/-- The token before is the last one that has been taken. -/
theorem gives_previousStop {taken rest : List Token} (hts : taken ++ rest <:+ list.tokens)
    (htaken : taken ≠ []) (stop : Nat) :
    Gives sql list previousStop rest (stopOf stop taken) rest := by
  obtain ⟨front, t, rfl⟩ := List.eq_nil_or_concat taken |>.resolve_left htaken
  rw [List.concat_eq_append, List.append_assoc] at hts
  have hlast : t :: rest <:+ list.tokens := (List.suffix_append front _).trans hts
  have hstop : stopOf stop (front.concat t) = t.stop := by simp [stopOf]
  refine (gives_position rest).bind ?_
  rw [place_tail hlast, hstop]
  exact (gives_tokenAt (getElem?_place hlast) rest).bind (gives_pure t.stop rest)

theorem startsStarOf_eq (list : TokenList) (ts : List Token) :
    Grammar.startsStarOf ts = (Reader.startsName ts &&
      decide ((ahead list (ts.drop 1)).kind = some (.mark .dot)) &&
      decide ((ahead list (ts.drop 2)).kind = some (.mark .star))) := by
  match ts with
  | [] => rfl
  | [_] | [_, _] => simp [Grammar.startsStarOf, ahead, Placed.atEnd]
  | _ :: _ :: _ :: _ => simp [Grammar.startsStarOf, Reader.startsName, ahead, Placed.ofToken]

variable (h : Lexer.tokens sql = .ok list)
include h

theorem gives_startsStarOf (hts : ts <:+ list.tokens) :
    Gives sql list Parser.startsStarOf ts (Grammar.startsStarOf ts) ts := by
  refine (gives_current hts).bind ((gives_startsName h hts).bind ?_)
  rw [startsStarOf_eq list]
  cases Reader.startsName ts with
  | false => exact gives_pure false ts
  | true =>
    refine (gives_peek hts 1).bind ?_
    by_cases hdot : (ahead list (ts.drop 1)).kind = some (.mark .dot)
    · rw [if_pos hdot, decide_eq_true hdot]
      exact (gives_peek hts 2).bind (gives_pure _ ts)
    · rw [if_neg hdot, decide_eq_false hdot]
      exact gives_pure false ts

end Looking

section Items

/-- An operand takes one token at least. -/
theorem readOperand_length_lt {e : Expr} {r : Rest ts} (h : readOperand ts = .ok (e, r)) :
    r.1.length < ts.length := by
  cases ts with
  | nil => rw [readOperand] at h; cases h
  | cons t after =>
    suffices ∃ s : Rest after, r = .tail t after s by
      obtain ⟨s, rfl⟩ := this
      exact Nat.lt_succ_of_le s.length_le
    rw [readOperand] at h
    repeat' split at h
    all_goals cases h
    all_goals exact ⟨_, rfl⟩

theorem readExpr_length_lt {e : Expr} {r : Rest ts} (h : readExpr ts = .ok (e, r)) :
    r.1.length < ts.length := by
  rw [readExpr, readExprFrom] at h
  cases hleft : readOperand ts with
  | error e => rw [hleft] at h; cases h
  | ok read =>
    obtain ⟨left, s⟩ := read
    simp only [hleft] at h
    cases hmore : readOperators 0 left s.1 with
    | error e => rw [hmore] at h; cases h
    | ok more =>
      rw [hmore] at h
      cases h
      exact Nat.lt_of_le_of_lt more.2.length_le (readOperand_length_lt hleft)

end Items

section Parts

variable (h : Lexer.tokens sql = .ok list)
include h

theorem follows_otherName {m : Parser String} {p : Reader String}
    (hname : Follows sql list limit m p) :
    Follows sql list limit (otherName m) (readAlias p) := by
  refine (follows_matchToken _).bind fun behindAs => ?_
  cases behindAs with
  | true => exact hname.bind fun _ => follows_pure _
  | false =>
    intro ts hts hlimit
    refine tracks_ahead ((gives_current hts).tracks ((gives_startsName h hts).tracks ?_))
    cases Reader.startsName ts with
    | true => exact (hname.bind fun _ => follows_pure _) ts hts hlimit
    | false => exact tracks_value none rfl

theorem follows_written : Follows sql list limit written readWritten := by
  intro ts hts hlimit
  refine tracks_ahead ((gives_current hts).tracks ?_)
  rw [bind_eq_followedBy]
  refine (follows_expr h ts hts hlimit).followedBy fun e r hr => tracks_ahead ?_
  have hlt := readExpr_length_lt hr
  obtain ⟨rest, taken, rfl⟩ := r
  have htaken : taken ≠ [] := by
    rintro rfl
    exact Nat.lt_irrefl _ hlt
  have hcut : (taken ++ rest).take ((taken ++ rest).length - rest.length) = taken := by simp
  have hslices := slices_taken h hts (List.prefix_append taken rest)
  dsimp only
  rw [hcut]
  refine (gives_previousStop hts htaken _).tracks ((gives_slice hslices _).tracks ?_)
  exact tracks_value _ rfl

/-- All columns of one table. -/
theorem tracks_starOf (hts : ts <:+ list.tokens) (hstar : Grammar.startsStarOf ts = true) :
    Tracks sql list (do let qualifier ← identifier; advance; advance; return .starOf qualifier) ts
      ((do let qualifier ← Reader.identifier; Reader.mark .dot; Reader.mark .star
           return SelectItem.starOf qualifier : Reader SelectItem) ts) := by
  match ts, hstar with
  | t :: u :: v :: after, hstar =>
    simp only [Grammar.startsStarOf, Bool.and_eq_true, decide_eq_true_eq] at hstar
    obtain ⟨⟨hname, hdot⟩, hstar⟩ := hstar
    obtain ⟨qualifier, hname⟩ := Option.isSome_iff_exists.1 hname
    have hu := suffix_tail hts
    have hend : Gives sql list (pure (SelectItem.starOf qualifier)) after _ after :=
      gives_pure _ after
    refine Gives.tracks_of_reads ((gives_identifier h hts hname).bind
      ((gives_advance hu).bind ((gives_advance (suffix_tail hu)).bind hend))) ?_
    exact reads_bind.2 ⟨_, _, reads_identifier hname _, reads_bind.2 ⟨_, _, reads_mark hdot _,
      reads_bind.2 ⟨_, _, reads_mark hstar _, reads_pure.2 ⟨rfl, rfl⟩⟩⟩⟩

theorem follows_item : Follows sql list limit item readItem := by
  refine (follows_matchToken _).bind fun star => ?_
  cases star with
  | true => exact follows_pure _
  | false =>
    intro ts hts hlimit
    refine tracks_ahead ((gives_startsStarOf h hts).tracks ?_)
    cases hstar : Grammar.startsStarOf ts with
    | true => exact tracks_starOf h hts hstar
    | false =>
      exact ((follows_written h).bind fun _ => (follows_otherName h (follows_identifier h)).bind
        fun _ => follows_pure _) ts hts hlimit

theorem follows_table : Follows sql list limit table readTable :=
  (follows_name h).bind fun _ => (follows_otherName h (follows_name h)).bind fun _ => follows_pure _

theorem follows_pair : Follows sql list limit pair readPair :=
  (follows_columnRef h).bind fun _ => (follows_mark h _).bind fun _ =>
    (follows_columnRef h).bind fun _ => follows_pure _

theorem follows_pairs : Follows sql list limit pairs readPairs :=
  (follows_matchToken _).bind fun bracketed =>
    (follows_separated _ fun _ => follows_pair h).bind fun _ => by
      cases bracketed with
      | true => exact (follows_mark h _).bind fun _ => follows_pure _
      | false => exact follows_pure _

theorem follows_joined (kind : JoinKind) :
    Follows sql list limit (joined kind) (readJoin kind true) := by
  refine (follows_table h).bind fun table => (follows_matchToken _).bind fun on => ?_
  cases on with
  | true => exact (follows_pairs h).bind fun _ => follows_pure _
  | false =>
    by_cases hcross : kind = .cross
    · simp only [hcross]
      exact follows_pure _
    · simp only [hcross]
      exact fun ts hts _ => tracks_fail hts _

theorem follows_orderItem : Follows sql list limit orderItem readOrderItem :=
  (follows_expr h).bind fun _ => (follows_matchToken _).bind fun descending => by
    cases descending with
    | true => exact follows_pure _
    | false => exact (follows_matchToken _).bind fun _ => follows_pure _

omit h in
theorem follows_count : Follows sql list limit count readCount := by
  intro ts hts _
  refine (gives_current hts).tracks ?_
  cases ts with
  | nil => exact tracks_fail hts _
  | cons t after =>
    rw [readCount]
    dsimp only [ahead, Placed.ofToken]
    cases hkind : t.kind with
    | number x =>
      dsimp only
      split
      · exact tracks_fail hts _
      · exact (gives_advance hts).tracks (tracks_value _ rfl)
    | _ => exact tracks_fail hts _

/-- A join is read from its first word on. -/
theorem tracks_join (kind : JoinKind) (hts : t :: after <:+ list.tokens) :
    Tracks sql list (join kind) (t :: after) (readJoin kind (t.kind = .keyword .JOIN) after) := by
  have hafter := suffix_tail hts
  refine (gives_current hts).tracks ?_
  by_cases ht : t.kind = .keyword .JOIN
  · rw [if_pos (ahead_kind_cons.2 ht), decide_eq_true ht]
    have hword : Gives sql list (keyword .JOIN) (t :: after) () after :=
      (gives_matchToken_true hts ht).bind (gives_pure () after)
    exact hword.tracks (follows_joined h kind after hafter (Nat.le_refl _))
  · rw [if_neg (mt ahead_kind_cons.1 ht), decide_eq_false ht]
    have hwords : Follows sql list after.length
        (do let _ ← matchToken (.keyword .OUTER); keyword .JOIN; joined kind)
        (readJoin kind false) :=
      (follows_matchToken _).bind fun _ => (follows_keyword h _).bind fun _ => follows_joined h kind
    exact (gives_advance hts).tracks (hwords after hafter (Nat.le_refl _))

theorem follows_joins : Follows sql list limit joins readJoins := by
  induction limit using Nat.strongRecOn with
  | ind limit ih =>
    intro ts hts hlimit
    refine Tracks.call ((gives_current hts).tracks ?_)
    cases ts with
    | nil =>
      rw [readJoins]
      exact tracks_value [] rfl
    | cons t after =>
      rw [readJoins, ahead_kind_bind]
      cases joinKind? t.kind with
      | none => exact tracks_value [] rfl
      | some kind =>
        have hafter := suffix_tail hts
        have hmore := fun r : Rest after =>
          ih after.length hlimit r.1 (r.2.trans hafter) r.length_le
        exact (tracks_join h kind hts).joined hmore (fun e he => by simp only [he])
          (fun a r e hr he => by simp only [hr, he])
          fun a r as s hr hs => by simp only [hr, hs]; rfl

theorem follows_select : Follows sql list limit select readSelect :=
  (follows_keyword h _).bind fun _ => (follows_matchToken _).bind fun _ =>
    (follows_separated _ fun _ => follows_item h).bind fun _ => (follows_keyword h _).bind fun _ =>
    (follows_table h).bind fun _ => (follows_joins h).bind fun _ =>
    (follows_optionalClause _ fun limit => (conditionFollows h limit).condition).bind fun _ =>
    (follows_optionalClause _ fun _ => (follows_keyword h _).bind fun _ =>
      follows_separated _ fun _ => follows_columnRef h).bind fun _ =>
    (follows_optionalClause _ fun limit => (conditionFollows h limit).condition).bind fun _ =>
    (follows_optionalClause _ fun _ => (follows_keyword h _).bind fun _ =>
      follows_separated _ fun _ => follows_orderItem h).bind fun _ =>
    (follows_optionalClause _ fun _ => follows_count).bind fun _ =>
    (follows_optionalClause _ fun _ => follows_count).bind fun _ => follows_pure _

end Parts
end SqlEngine.Cursor
