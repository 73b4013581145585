import SqlEngine.Proofs.Cursor.Follows
import SqlEngine.Proofs.Token.Slices

/-!
# Tokens, names and marks by position

The token with the index at which an end part of the tokens begins is the first of that part, and
the slice from where the first of some tokens begins to where the last of them ends is their text.
With this the parsers of single tokens, and of lists of things between marks, follow their readers.
-/
namespace SqlEngine.Cursor

open Grammar SqlEngine.Cursor.Parser

variable {α β : Type} {sql : String} {list : TokenList} {ts after : List Token} {t : Token}
  {limit : Nat}

section Looking

theorem suffix_tail (hts : t :: after <:+ list.tokens) : after <:+ list.tokens :=
  (List.suffix_cons t after).trans hts

theorem mem_of_suffix (hts : t :: after <:+ list.tokens) : t ∈ list.tokens :=
  hts.subset List.mem_cons_self

theorem place_le (list : TokenList) (ts : List Token) : place list ts ≤ list.tokens.length :=
  Nat.sub_le ..

theorem place_tail (hts : t :: after <:+ list.tokens) :
    place list after = place list (t :: after) + 1 := by
  have := hts.length_le
  simp only [place, List.length_cons] at this ⊢
  omega

theorem length_tokens : (Source.ofTokens sql list).tokens.length = list.tokens.length + 1 := by
  simp [Source.ofTokens]

/-- The token with the index at which an end part begins. -/
theorem getElem?_place (hts : ts <:+ list.tokens) :
    (Source.ofTokens sql list).tokens[place list ts]? = some (ahead list ts) := by
  obtain ⟨front, hfront⟩ := hts
  have hplace : place list ts = (front.map Placed.ofToken).length := by
    rw [place, ← hfront]
    simp
  rw [Source.ofTokens, ← hfront, List.map_append, List.append_assoc, hplace,
    List.getElem?_append_right (Nat.le_refl _), Nat.sub_self]
  cases ts <;> rfl

/-- What the kind of the token ahead is looked up for. -/
theorem ahead_kind_bind (f : TokenKind → Option α) :
    (ahead list (t :: after)).kind.bind f = f t.kind := rfl

theorem gives_lower (n : Nat) (ts : List Token) : Gives sql list (lower (n + 1)) ts n ts :=
  gives_pure n ts

theorem gives_source (ts : List Token) : Gives sql list source ts (.ofTokens sql list) ts :=
  ⟨1, rfl⟩

theorem gives_position (ts : List Token) : Gives sql list position ts (place list ts) ts :=
  ⟨1, rfl⟩

/-- The position may be moved to wherever it has been. -/
theorem gives_moveTo (here ts : List Token) :
    Gives sql list (moveTo (place list ts)) here () ts :=
  ⟨1, rfl⟩

theorem gives_tokenAt {index : Nat} {token : Placed}
    (h : (Source.ofTokens sql list).tokens[index]? = some token) (ts : List Token) :
    Gives sql list (tokenAt index) ts token ts := by
  refine (gives_source ts).bind ?_
  simp only [h]
  exact gives_pure token ts

theorem gives_current (hts : ts <:+ list.tokens) :
    Gives sql list current ts (ahead list ts) ts := by
  exact (gives_position ts).bind (gives_tokenAt (getElem?_place hts) ts)

theorem gives_advance (hts : ts <:+ list.tokens) : Gives sql list advance ts () (ts.drop 1) := by
  have hlast : Gives sql list (lower (Source.ofTokens sql list).tokens.length) ts
      list.tokens.length ts := by
    rw [length_tokens]
    exact gives_lower _ ts
  refine (gives_source ts).bind (hlast.bind ((gives_position ts).bind ?_))
  cases ts with
  | nil =>
    rw [if_neg (by simp [place])]
    exact gives_pure () []
  | cons t after =>
    have hplace := place_tail hts
    have hle := place_le list after
    rw [if_pos (by omega), ← hplace]
    exact gives_moveTo (t :: after) after

end Looking

section Failing

theorem tracks_failAt (hts : ts <:+ list.tokens) {us : List Token} (token : Option Token)
    (what : Complaint) :
    Tracks sql list (failAt ((token.map .ofToken).getD (.atEnd list.finish)) what : Parser α) ts
      (.error (.complaint token what) : Reading α us) := by
  cases token with
  | none => exact tracks_refuse hts (.complaint none what)
  | some t => exact tracks_refuse hts (.complaint (some t) what)

theorem tracks_fail (hts : ts <:+ list.tokens) {us : List Token} (what : Complaint) :
    Tracks sql list (fail what : Parser α) ts
      (.error (.complaint ts.head? what) : Reading α us) := by
  refine (gives_current hts).tracks ?_
  cases ts with
  | nil => exact tracks_failAt hts none what
  | cons t after => exact tracks_failAt hts (some t) what

end Failing

/-- Where the tokens end, or the given offset if there are none. -/
def stopOf (stop : Nat) (taken : List Token) : Nat := (taken.getLast?.map Token.stop).getD stop

theorem stopOf_cons (stop : Nat) (t : Token) (taken : List Token) :
    stopOf stop (t :: taken) = stopOf t.stop taken := by
  rw [stopOf, stopOf, List.getLast?_cons]
  cases taken.getLast? <;> rfl

section Text

variable (h : Lexer.tokens sql = .ok list)

theorem gives_slice {start stop : Nat} {piece : String} (h : Lexer.Slices sql start stop piece)
    (ts : List Token) : Gives sql list (slice start stop) ts piece ts := by
  obtain ⟨hstart, hstop, hle, rfl⟩ := h
  refine (gives_source ts).bind ?_
  rw [if_pos ⟨hle, hstart, hstop⟩]
  exact gives_pure _ ts

include h

theorem gives_tokenText (hmem : t ∈ list.tokens) (ts : List Token) :
    Gives sql list (tokenText (.ofToken t)) ts t.text ts :=
  gives_slice (Lexer.slices_text h hmem) ts

/-- The text of the first tokens lies from where they begin to where they end. -/
theorem slices_taken (hts : ts <:+ list.tokens) {taken : List Token} (htaken : taken <+: ts) :
    Lexer.Slices sql (ahead list ts).start.offset (stopOf (ahead list ts).start.offset taken)
      (Token.textOf taken) := by
  obtain ⟨after, rfl⟩ := htaken
  cases taken with
  | nil =>
    cases after with
    | nil => exact Lexer.slices_finish h
    | cons t after => exact Lexer.slices_start h (mem_of_suffix hts)
  | cons t more =>
    obtain ⟨before, hbefore⟩ := hts
    have hsplit : list.tokens = before ++ t :: more ++ after := by
      rw [← hbefore, List.append_assoc]
    have hlast : (t :: more).getLast? = some (more.getLast?.getD t) := List.getLast?_cons
    rw [stopOf, hlast]
    exact Lexer.slices_textOf h hsplit rfl hlast

theorem gives_currentText (hts : ts <:+ list.tokens) :
    Gives sql list currentText ts (textAt ts) ts := by
  refine (gives_current hts).bind ?_
  cases ts with
  | nil => exact gives_pure _ []
  | cons t after => exact gives_tokenText h (mem_of_suffix hts) _

/-- The quote of a string can be told from the text at its place. -/
theorem gives_isName (hmem : t ∈ list.tokens) (ts : List Token) :
    Gives sql list (isName (.ofToken t)) ts t.name?.isSome ts := by
  rw [isName, Placed.ofToken, Token.name?]
  cases hkind : t.kind with
  | identifier name => exact gives_pure true ts
  | string quote content =>
    obtain ⟨rest, hslices⟩ := Lexer.slices_from h hmem
    have hquote := (Lexer.cuts_of_tokensFrom h).head?_of_string hmem hkind
    refine (gives_source ts).bind ((gives_slice hslices ts).bind ?_)
    rw [String.toList_ofList, List.head?_append, hquote]
    by_cases hdouble : quote = '"'
    · subst hdouble
      exact gives_pure true ts
    · dsimp only
      rw [if_neg hdouble, Option.some_or, decide_eq_false (by simpa using hdouble)]
      exact gives_pure false ts
  | keyword word =>
    cases hword : word.isNonReserved <;> simp only [hword] <;> exact gives_pure _ ts
  | mark m => exact gives_pure false ts
  | number x => exact gives_pure false ts

theorem gives_startsName (hts : ts <:+ list.tokens) :
    Gives sql list (isName (ahead list ts)) ts (Reader.startsName ts) ts := by
  cases ts with
  | nil => exact gives_pure false []
  | cons t after => exact gives_isName h (mem_of_suffix hts) _

theorem gives_nameText (hmem : t ∈ list.tokens) {name : String} (hname : t.name? = some name)
    (ts : List Token) : Gives sql list (nameText (.ofToken t)) ts name ts := by
  rw [Token.name?] at hname
  rw [nameText, Placed.ofToken]
  split at hname
  · next hkind =>
    cases hname
    rw [hkind]
    exact gives_pure name ts
  · next hkind =>
    split at hname
    · cases hname
      rw [hkind]
      exact gives_pure name ts
    · cases hname
  · next hkind =>
    split at hname
    · cases hname
      have htext := gives_tokenText h hmem ts
      rw [Placed.ofToken, hkind] at htext
      rw [hkind]
      exact htext
    · cases hname
  · cases hname

end Text

section Taking

theorem ahead_kind_nil (kind : TokenKind) : ¬ (ahead list []).kind = some kind := nofun

theorem ahead_kind_cons {kind : TokenKind} :
    (ahead list (t :: after)).kind = some kind ↔ t.kind = kind :=
  Option.some_inj

theorem gives_matchToken_true {kind : TokenKind} (hts : t :: after <:+ list.tokens)
    (ht : t.kind = kind) : Gives sql list (matchToken kind) (t :: after) true after := by
  refine (gives_current hts).bind ?_
  rw [if_pos (ahead_kind_cons.2 ht)]
  exact (gives_advance hts).bind (gives_pure true after)

theorem gives_matchToken_false {kind : TokenKind} (hts : ts <:+ list.tokens)
    (hkind : (ahead list ts).kind ≠ some kind) : Gives sql list (matchToken kind) ts false ts := by
  refine (gives_current hts).bind ?_
  rw [if_neg hkind]
  exact gives_pure false ts

theorem follows_matchToken (kind : TokenKind) :
    Follows sql list limit (matchToken kind) (Reader.optional kind) := by
  intro ts hts _
  cases ts with
  | nil => exact .value (gives_matchToken_false hts (ahead_kind_nil kind))
  | cons t after =>
    rw [Reader.optional]
    split
    · next ht => exact .value (gives_matchToken_true hts ht)
    · next ht => exact .value (gives_matchToken_false hts (mt ahead_kind_cons.1 ht))

variable (h : Lexer.tokens sql = .ok list)
include h

theorem tracks_expect {kind : TokenKind} {us : List Token} (what : String → Complaint)
    (hts : ts <:+ list.tokens) (hkind : (ahead list ts).kind ≠ some kind) :
    Tracks sql list (expect kind what) ts
      (.error (.complaint ts.head? (what (textAt ts))) : Reading Unit us) :=
  (gives_matchToken_false hts hkind).tracks ((gives_currentText h hts).tracks (tracks_fail hts _))

theorem follows_keyword (word : Keyword) :
    Follows sql list limit (keyword word) (Reader.keyword word) := by
  intro ts hts _
  cases ts with
  | nil => exact tracks_expect h _ hts (ahead_kind_nil _)
  | cons t after =>
    rw [Reader.keyword]
    split
    · next ht => exact .value ((gives_matchToken_true hts ht).bind (gives_pure () after))
    · next ht => exact tracks_expect h _ hts (mt ahead_kind_cons.1 ht)

theorem follows_mark (m : Mark) : Follows sql list limit (mark m) (Reader.mark m) := by
  intro ts hts _
  cases ts with
  | nil => exact tracks_expect h _ hts (ahead_kind_nil _)
  | cons t after =>
    rw [Reader.mark]
    split
    · next ht => exact .value ((gives_matchToken_true hts ht).bind (gives_pure () after))
    · next ht => exact tracks_expect h _ hts (mt ahead_kind_cons.1 ht)

theorem gives_identifier (hts : t :: after <:+ list.tokens) {name : String}
    (hname : t.name? = some name) : Gives sql list identifier (t :: after) name after := by
  have hmem := mem_of_suffix hts
  refine (gives_current hts).bind ((gives_isName h hmem _).bind ?_)
  rw [hname]
  have htext := gives_nameText h hmem hname (t :: after)
  exact (gives_current hts).bind (htext.bind ((gives_advance hts).bind (gives_pure name after)))

theorem follows_identifier : Follows sql list limit identifier Reader.identifier := by
  intro ts hts _
  cases ts with
  | nil => exact (gives_current hts).tracks ((gives_startsName h hts).tracks (tracks_fail hts _))
  | cons t after =>
    rw [Reader.identifier]
    split
    · next name hname => exact .value (gives_identifier h hts hname)
    · next hname =>
      refine (gives_current hts).tracks ((gives_isName h (mem_of_suffix hts) _).tracks ?_)
      rw [hname]
      exact tracks_fail hts _

theorem follows_name : Follows sql list limit name Reader.name :=
  (follows_identifier h).bind fun word => follows_pure (Text.lower word)

end Taking

section Lists

variable {m : Parser α} {p : Reader α}

/-- What a reader of further items reads, where it is left to `q` to go on. -/
def furtherStep (separator : TokenKind) (p : Reader α) (q : Reader (List α)) : Reader (List α)
  | [] => .ok ([], .whole [])
  | t :: ts =>
    if t.kind = separator then
      match p ts with
      | .error e => .error e
      | .ok (a, r) =>
        match q r.1 with
        | .error e => .error e
        | .ok (as, s) => .ok (a :: as, .tail t ts (r.trans s))
    else .ok ([], .whole _)

/-- A reader that goes on by itself in this way reads further items. The items have to be followed
only behind the separators. -/
theorem follows_furtherItems {separator : TokenKind} {q : Reader (List α)}
    (hq : ∀ ts, q ts = furtherStep separator p q ts)
    (hitem : ∀ less < limit, Follows sql list less m p) :
    Follows sql list limit (furtherItems separator m) q := by
  induction limit using Nat.strongRecOn with
  | ind limit ih =>
    intro ts hts hlimit
    refine Tracks.call ?_
    rw [hq]
    cases ts with
    | nil => exact (gives_matchToken_false hts (ahead_kind_nil _)).tracks (tracks_value [] rfl)
    | cons t after =>
      by_cases ht : t.kind = separator
      · have hafter := suffix_tail hts
        have hless : after.length < limit := hlimit
        have hmore := ih after.length hless fun less h => hitem less (Nat.lt_trans h hless)
        rw [furtherStep, if_pos ht]
        refine (gives_matchToken_true hts ht).tracks ?_
        exact (hitem _ hless after hafter (Nat.le_refl _)).joined
          (fun r => hmore r.1 (r.2.trans hafter) r.length_le) (fun e he => by rw [he])
          (fun a r e hr he => by simp only [hr, he])
          fun a r as s hr hs => by simp only [hr, hs]; rfl
      · rw [furtherStep, if_neg ht]
        exact (gives_matchToken_false hts (mt ahead_kind_cons.1 ht)).tracks (tracks_value [] rfl)

theorem follows_separated (separator : TokenKind)
    (hitem : ∀ limit, Follows sql list limit m p) :
    Follows sql list limit (separated separator m) (Reader.separated separator p) :=
  (hitem limit).bind fun _ =>
    (follows_furtherItems (Reader.furtherItems.eq_def separator p) fun less _ => hitem less).bind
      fun _ => follows_pure _

/-- A clause behind its keyword. -/
theorem follows_optionalClause (word : Keyword) (h : ∀ limit, Follows sql list limit m p) :
    Follows sql list limit (optionalClause word m) (Grammar.optionalClause word p) :=
  (follows_matchToken _).bind fun flag => by
    cases flag with
    | true => exact (h limit).bind fun _ => follows_pure _
    | false => exact follows_pure none

end Lists
end SqlEngine.Cursor
