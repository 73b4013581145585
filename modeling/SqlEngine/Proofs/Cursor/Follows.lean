import SqlEngine.Proofs.Cursor.Run
import SqlEngine.Proofs.Grammar.Climbing
import SqlEngine.Proofs.Grammar.Reads

/-!
# Parsers that follow readers

A parser by position follows a reader if it ends wherever the reader ends, with the same value or
the same failure, and neither crashes nor runs for ever. Following is kept by putting parsers and
readers one after another, so that it is shown for the grammar rule by rule.
-/
namespace SqlEngine.Cursor

open Grammar

variable {α β : Type}

/-- The position at which an end part of the tokens begins. -/
def place (list : TokenList) (ts : List Token) : Nat := list.tokens.length - ts.length

/-- The token at that position. -/
def ahead (list : TokenList) : List Token → Placed
  | [] => .atEnd list.finish
  | t :: _ => .ofToken t

/-- From the position of `ts` the parser comes to `a` and stops at the position of `rest`. -/
def Gives (sql : String) (list : TokenList) (m : Parser α) (ts : List Token) (a : α)
    (rest : List Token) : Prop :=
  m.Comes (.ofTokens sql list) (place list ts) (.ok (.ok a, place list rest))

/-- What was read and what is left, without the proof that it is an end part. -/
def bare {ts : List Token} (x : Reading α ts) : Except Refusal (α × List Token) :=
  match x with
  | .error e => .error e
  | .ok (a, r) => .ok (a, r.1)

/-- From the position of `here` the parser comes to what was read. After a failure it stops
somewhere among the tokens. -/
inductive Tracks (sql : String) (list : TokenList) (m : Parser α) (here : List Token)
    {ts : List Token} : Reading α ts → Prop
  | value {a : α} {r : Rest ts} (h : Gives sql list m here a r.1) :
      Tracks sql list m here (.ok (a, r))
  | refused {e : Refusal} {rest : List Token} (hrest : rest <:+ list.tokens)
      (h : m.Comes (.ofTokens sql list) (place list here)
        (.ok (.error (e.toError list.finish), place list rest))) :
      Tracks sql list m here (.error e)

/-- The parser comes to what the reader reads from any end part of the tokens with at most
`limit` of them. -/
def Follows (sql : String) (list : TokenList) (limit : Nat) (m : Parser α) (p : Reader α) : Prop :=
  ∀ ts, ts <:+ list.tokens → ts.length ≤ limit → Tracks sql list m ts (p ts)

section Sequence

variable {sql : String} {list : TokenList} {m : Parser α} {f : α → Parser β} {here mid : List Token}
  {ts us : List Token} {a : α} {limit : Nat}

theorem Gives.bind (h : Gives sql list m here a mid) {b : β} (hf : Gives sql list (f a) mid b us) :
    Gives sql list (m >>= f) here b us :=
  Parser.Comes.bind h hf

theorem gives_pure (a : α) (ts : List Token) : Gives sql list (pure a) ts a ts :=
  Parser.comes_pure a

/-- The position after a refusal is where the parser was. -/
theorem tracks_refuse (hhere : here <:+ list.tokens) (e : Refusal) :
    Tracks sql list (.refuse (e.toError list.finish) : Parser α) here (.error e : Reading α ts) :=
  .refused hhere ⟨1, rfl⟩

/-- A first step that only looks or goes on. -/
theorem Gives.tracks (h : Gives sql list m here a mid) {x : Reading β ts}
    (hf : Tracks sql list (f a) mid x) : Tracks sql list (m >>= f) here x := by
  cases hf with
  | value hvalue => exact .value (h.bind hvalue)
  | refused hrest hrefused => exact .refused hrest (Parser.Comes.bind h hrefused)

/-- A first parser that tracks a reading `x`, and another behind it. The failure of `x` is that of
the whole reading `y`, and where `x` succeeds the second parser has to come to `y`. -/
theorem Tracks.andThen {x : Reading α us} {y : Reading β ts} (h : Tracks sql list m here x)
    (hrefused : ∀ e, x = .error e → y = .error e)
    (hvalue : ∀ a r, x = .ok (a, r) → Tracks sql list (f a) r.1 y) :
    Tracks sql list (m >>= f) here y := by
  cases h with
  | @value a r h => exact h.tracks (hvalue a r rfl)
  | @refused e rest hrest h =>
    rw [hrefused e rfl]
    exact .refused hrest (h.bind_error f)

/-- A parser whose failure is caught: what follows it goes on from where it stopped. -/
theorem Tracks.attempt {x : Reading α us} {y : Reading β ts} {f : Except SqlError α → Parser β}
    (h : Tracks sql list m here x)
    (hrefused : ∀ e cause rest, x = .error e → rest <:+ list.tokens →
      Tracks sql list (f (.error cause)) rest y)
    (hvalue : ∀ a r, x = .ok (a, r) → Tracks sql list (f (.ok a)) r.1 y) :
    Tracks sql list (m.attempt >>= f) here y := by
  cases h with
  | @value a r h =>
    have hcaught : Gives sql list m.attempt here (.ok a) r.1 := Parser.Comes.attempt h
    exact hcaught.tracks (hvalue a r rfl)
  | @refused e rest hrest h =>
    have hcaught : Gives sql list m.attempt here (.error (e.toError list.finish)) rest :=
      h.attempt
    exact hcaught.tracks (hrefused e _ rest rfl hrest)

/-- A routine is called. -/
theorem Gives.call {routine : Routine α} (h : Gives sql list routine.body here a mid) :
    Gives sql list (.call routine) here a mid :=
  Parser.Comes.call h

theorem Tracks.call {routine : Routine α} {x : Reading α ts}
    (h : Tracks sql list routine.body here x) : Tracks sql list (.call routine) here x := by
  cases h with
  | value h => exact .value h.call
  | refused hrest h => exact .refused hrest h.call

/-- Only what is left matters, not of which tokens it is an end part. -/
theorem Tracks.congr {x : Reading α us} {y : Reading α ts} (h : Tracks sql list m here x)
    (hxy : bare x = bare y) : Tracks sql list m here y := by
  cases y with
  | error e =>
    cases h with
    | value h => cases hxy
    | refused hrest h =>
      cases hxy
      exact .refused hrest h
  | ok read =>
    obtain ⟨b, s⟩ := read
    cases h with
    | value h =>
      obtain ⟨rfl, hrest⟩ := Prod.mk.inj (Except.ok.inj hxy)
      exact .value (hrest ▸ h)
    | refused hrest h => cases hxy

/-- The value is put together at the end, where nothing more is taken. -/
theorem tracks_value (a : α) {r : Rest ts} (hr : r.1 = here) :
    Tracks sql list (pure a) here (.ok (a, r)) := by
  subst hr
  exact .value (gives_pure a r.1)

/-- A parser that comes to what is read. -/
theorem Gives.tracks_of_bare {mid : List Token} (h : Gives sql list m here a mid) {x : Reading α ts}
    (hx : bare x = .ok (a, mid)) : Tracks sql list m here x := by
  cases x with
  | error e => cases hx
  | ok read =>
    obtain ⟨b, r⟩ := read
    cases hx
    exact .value h

theorem Gives.tracks_of_reads {mid : List Token} (h : Gives sql list m here a mid) {p : Reader α}
    (hp : Reads p ts a mid) : Tracks sql list m here (p ts) := by
  obtain ⟨r, hr, rfl⟩ := hp
  rw [hr]
  exact .value h

theorem bare_under {r : Rest ts} (x : Reading α r.1) : bare (x.under r) = bare x := by
  cases x <;> rfl

theorem bare_followedBy {x : Reading α ts} {r : Rest ts} (hx : x = .ok (a, r))
    (next : α → (us : List Token) → Reading β us) :
    bare (x.followedBy next) = bare (next a r.1) := by
  rw [hx]
  exact bare_under _

/-- A reading and what is read of the tokens that it leaves. -/
theorem Tracks.followedBy {x : Reading α ts} {next : α → (us : List Token) → Reading β us}
    (h : Tracks sql list m here x)
    (hf : ∀ a r, x = .ok (a, r) → Tracks sql list (f a) r.1 (next a r.1)) :
    Tracks sql list (m >>= f) here (x.followedBy next) := by
  refine h.andThen ?_ ?_
  · intro e he
    rw [he, Reading.followedBy]
  · intro a r hr
    exact (hf a r hr).congr (bare_followedBy hr next).symm

theorem Tracks.behind {t : Token} {x : Reading α ts} (h : Tracks sql list m here x) :
    Tracks sql list m here (x.behind t) :=
  h.congr (bare_under (r := .tail t ts (.whole ts)) x).symm

/-- Two parsers one after another whose values are put together: the reading `y` fails where either
of the two readings does, and leaves what the second one leaves. -/
theorem Tracks.joined {γ : Type} {x : Reading α us} {y : Reading γ ts} {n : Parser β}
    {next : (vs : List Token) → Reading β vs} {g : α → β → γ} (h : Tracks sql list m here x)
    (hn : ∀ r : Rest us, Tracks sql list n r.1 (next r.1))
    (hfirst : ∀ e, x = .error e → y = .error e)
    (hsecond : ∀ a r e, x = .ok (a, r) → next r.1 = .error e → y = .error e)
    (hboth : ∀ a r b s, x = .ok (a, r) → next r.1 = .ok (b, s) → bare y = .ok (g a b, s.1)) :
    Tracks sql list (do let a ← m; return g a (← n)) here y := by
  refine h.andThen hfirst fun a r hr => (hn r).andThen (hsecond a r · hr) fun b s hs => ?_
  exact (gives_pure (g a b) s.1).tracks_of_bare (hboth a r b s hr hs)

theorem bind_eq_followedBy (p : Reader α) (g : α → Reader β) (ts : List Token) :
    (p >>= g) ts = (p ts).followedBy g := by
  have hbind : (p >>= g) ts = (p ts).andThen g := rfl
  rw [hbind]
  cases p ts with
  | error e => rfl
  | ok read =>
    obtain ⟨a, r⟩ := read
    simp only [Reading.andThen, Reading.followedBy]
    cases g a r.1 <;> rfl

theorem Follows.bind {p : Reader α} {g : α → Reader β} (h : Follows sql list limit m p)
    (hf : ∀ a, Follows sql list limit (f a) (g a)) :
    Follows sql list limit (m >>= f) (p >>= g) := by
  intro ts hts hlimit
  rw [bind_eq_followedBy]
  refine (h ts hts hlimit).followedBy fun a r _ => ?_
  exact hf a r.1 (r.2.trans hts) (Nat.le_trans r.length_le hlimit)

theorem follows_pure (a : α) : Follows sql list limit (pure a) (pure a) :=
  fun _ _ _ => tracks_value a rfl

end Sequence

end SqlEngine.Cursor
