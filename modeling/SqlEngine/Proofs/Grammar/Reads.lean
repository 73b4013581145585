import SqlEngine.Grammar.Reader

/-!
# What a reader reads

A reader either fails on some tokens, or reads one thing from them and leaves one end part of them.
The proof that the rest is an end part plays no role in what follows, so a reading is stated here as
a relation between the tokens, the thing and the rest. Readings one after another compose.
-/
namespace SqlEngine.Grammar

variable {α β : Type}

/-- From `ts` the reader `p` reads `a` and leaves `rest`. -/
def Reads (p : Reader α) (ts : List Token) (a : α) (rest : List Token) : Prop :=
  ∃ r : Rest ts, p ts = .ok (a, r) ∧ r.1 = rest

/-- The reader reads nothing from `ts`. -/
def Refuses (p : Reader α) (ts : List Token) : Prop := ∃ e, p ts = .error e

theorem Reads.unique {p : Reader α} {ts rest other : List Token} {a b : α}
    (ha : Reads p ts a rest) (hb : Reads p ts b other) : a = b ∧ rest = other := by
  obtain ⟨r, hr, rfl⟩ := ha
  obtain ⟨s, hs, rfl⟩ := hb
  rw [hr] at hs
  cases hs
  exact ⟨rfl, rfl⟩

theorem Refuses.not_reads {p : Reader α} {ts rest : List Token} {a : α} (h : Refuses p ts) :
    ¬ Reads p ts a rest := by
  rintro ⟨r, hr, -⟩
  obtain ⟨e, he⟩ := h
  rw [he] at hr
  cases hr

theorem Reads.congr {p q : Reader α} {ts rest : List Token} {a : α} (hpq : p ts = q ts)
    (h : Reads q ts a rest) : Reads p ts a rest := by
  obtain ⟨r, hr, hrest⟩ := h
  exact ⟨r, hpq.trans hr, hrest⟩

theorem reads_pure {ts rest : List Token} {a b : α} :
    Reads (pure a) ts b rest ↔ b = a ∧ rest = ts := by
  constructor
  · rintro ⟨r, hr, rfl⟩
    cases hr
    exact ⟨rfl, rfl⟩
  · rintro ⟨rfl, rfl⟩
    exact ⟨.whole _, rfl, rfl⟩

/-- Two readers one after the other read what each of them reads in its turn. -/
theorem reads_bind {p : Reader α} {f : α → Reader β} {ts rest : List Token} {b : β} :
    Reads (p >>= f) ts b rest ↔ ∃ a mid, Reads p ts a mid ∧ Reads (f a) mid b rest := by
  have hbind : (p >>= f) ts = (p ts).andThen f := rfl
  constructor
  · rintro ⟨r, hr, rfl⟩
    rw [hbind] at hr
    unfold Reading.andThen at hr
    split at hr
    · cases hr
    · next a first hfirst =>
      split at hr
      · cases hr
      · next b second hsecond =>
        cases hr
        exact ⟨a, first.1, ⟨first, hfirst, rfl⟩, ⟨second, hsecond, rfl⟩⟩
  · rintro ⟨a, _, ⟨first, hfirst, rfl⟩, ⟨second, hsecond, rfl⟩⟩
    refine ⟨first.trans second, ?_, rfl⟩
    rw [hbind]
    unfold Reading.andThen
    rw [hfirst]
    simp only [hsecond]

/-- Behind a reader that reads, the next one decides. -/
theorem reads_bind_iff {p : Reader α} {f : α → Reader β} {ts mid rest : List Token} {a : α} {b : β}
    (hp : Reads p ts a mid) : Reads (p >>= f) ts b rest ↔ Reads (f a) mid b rest := by
  rw [reads_bind]
  constructor
  · rintro ⟨other, left, hother, hf⟩
    obtain ⟨rfl, rfl⟩ := hp.unique hother
    exact hf
  · intro hf
    exact ⟨a, mid, hp, hf⟩

/-- Readers one after another may be grouped either way. -/
theorem reader_bind_assoc {γ : Type} (p : Reader α) (f : α → Reader β) (g : β → Reader γ) :
    p >>= f >>= g = p >>= fun a => f a >>= g := by
  funext ts
  change ((p ts).andThen f).andThen g = (p ts).andThen fun a ts => (f a ts).andThen g
  rcases hp : p ts with e | ⟨a, r⟩
  · rfl
  · rcases hf : f a r.1 with e | ⟨b, s⟩
    · simp only [Reading.andThen, hf]
    · rcases hg : g b s.1 with e | ⟨c, t⟩
      · simp only [Reading.andThen, hf, Rest.trans, hg]
      · simp only [Reading.andThen, hf, Rest.trans, hg]

/-- A sequence of readers reads nothing when the second one does not. -/
theorem refuses_bind {p : Reader α} {f : α → Reader β} {ts mid : List Token} {a : α}
    (hp : Reads p ts a mid) (hf : Refuses (f a) mid) : Refuses (p >>= f) ts := by
  obtain ⟨r, hr, rfl⟩ := hp
  obtain ⟨e, he⟩ := hf
  refine ⟨e, ?_⟩
  have hbind : (p >>= f) ts = (p ts).andThen f := rfl
  rw [hbind, hr, Reading.andThen]
  simp only [he]

theorem refuses_bind_left {p : Reader α} {f : α → Reader β} {ts : List Token} (hp : Refuses p ts) :
    Refuses (p >>= f) ts := by
  obtain ⟨e, he⟩ := hp
  refine ⟨e, ?_⟩
  have hbind : (p >>= f) ts = (p ts).andThen f := rfl
  rw [hbind, he, Reading.andThen]

theorem reads_optional {kind : TokenKind} {t : Token} (ht : t.kind = kind) (rest : List Token) :
    Reads (Reader.optional kind) (t :: rest) true rest :=
  ⟨.tail t rest (.whole rest), by rw [Reader.optional, if_pos ht], rfl⟩

theorem reads_optional_absent {kind : TokenKind} {ts : List Token}
    (hts : ∀ t ∈ ts.head?, t.kind ≠ kind) : Reads (Reader.optional kind) ts false ts := by
  cases ts with
  | nil => exact ⟨.whole [], rfl, rfl⟩
  | cons t rest => exact ⟨.whole _, by rw [Reader.optional, if_neg (hts t rfl)], rfl⟩

theorem Reads.optional {kind : TokenKind} {ts rest : List Token} {flag : Bool}
    (h : Reads (Reader.optional kind) ts flag rest) :
    (flag = true ∧ ∃ t, ts = t :: rest ∧ t.kind = kind) ∨
      (flag = false ∧ rest = ts ∧ ∀ t ∈ ts.head?, t.kind ≠ kind) := by
  obtain ⟨r, hr, rfl⟩ := h
  cases ts with
  | nil =>
    cases hr
    exact .inr ⟨rfl, rfl, by rintro t ⟨⟩⟩
  | cons t after =>
    rw [Reader.optional] at hr
    split at hr
    · next ht =>
      cases hr
      exact .inl ⟨rfl, t, rfl, ht⟩
    · next ht =>
      cases hr
      exact .inr ⟨rfl, rfl, by rintro u ⟨⟩; exact ht⟩

theorem reads_keyword {word : Keyword} {t : Token} (ht : t.kind = .keyword word)
    (rest : List Token) : Reads (Reader.keyword word) (t :: rest) () rest :=
  ⟨.tail t rest (.whole rest), by rw [Reader.keyword, if_pos ht], rfl⟩

theorem Reads.keyword {word : Keyword} {ts rest : List Token} {u : Unit}
    (h : Reads (Reader.keyword word) ts u rest) : ∃ t, ts = t :: rest ∧ t.kind = .keyword word := by
  obtain ⟨r, hr, rfl⟩ := h
  cases ts with
  | nil => cases hr
  | cons t after =>
    rw [Reader.keyword] at hr
    split at hr
    · next ht =>
      cases hr
      exact ⟨t, rfl, ht⟩
    · cases hr

theorem reads_mark {m : Mark} {t : Token} (ht : t.kind = .mark m) (rest : List Token) :
    Reads (Reader.mark m) (t :: rest) () rest :=
  ⟨.tail t rest (.whole rest), by rw [Reader.mark, if_pos ht], rfl⟩

theorem Reads.mark {m : Mark} {ts rest : List Token} {u : Unit}
    (h : Reads (Reader.mark m) ts u rest) : ∃ t, ts = t :: rest ∧ t.kind = .mark m := by
  obtain ⟨r, hr, rfl⟩ := h
  cases ts with
  | nil => cases hr
  | cons t after =>
    rw [Reader.mark] at hr
    split at hr
    · next ht =>
      cases hr
      exact ⟨t, rfl, ht⟩
    · cases hr

theorem Reads.identifier {ts rest : List Token} {name : String}
    (h : Reads Reader.identifier ts name rest) : ∃ t, ts = t :: rest ∧ t.name? = some name := by
  obtain ⟨r, hr, rfl⟩ := h
  cases ts with
  | nil => cases hr
  | cons t after =>
    rw [Reader.identifier] at hr
    split at hr
    · next found hname =>
      cases hr
      exact ⟨t, rfl, hname⟩
    · cases hr

end SqlEngine.Grammar
