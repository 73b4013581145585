import SqlEngine.Proofs.Cursor.Rules

/-!
# Running a parser

A parser is run for a number of steps, and may not come to its end within them. Once it has come to
its end, more steps make no difference, and so what it comes to is put together from what its parts
come to.
-/
namespace SqlEngine.Cursor

namespace Parser

variable {α β : Type}

/-- What a parser comes to from a position within so many steps, if it comes to its end: a crash,
or a value or failure with the position where it ends. -/
def run : Nat → {α : Type} → Parser α → Source → Nat →
    Option (Except Crash (Except SqlError α × Nat))
  | 0, _, _, _, _ => none
  | _ + 1, _, .done a, _, here => some (.ok (.ok a, here))
  | steps + 1, _, .andThen m f, src, here =>
    match run steps m src here with
    | none => none
    | some (.error c) => some (.error c)
    | some (.ok (.error e, next)) => some (.ok (.error e, next))
    | some (.ok (.ok a, next)) => run steps (f a) src next
  | _ + 1, _, .source, src, here => some (.ok (.ok src, here))
  | _ + 1, _, .position, _, here => some (.ok (.ok here, here))
  | _ + 1, _, .moveTo there, _, _ => some (.ok (.ok (), there))
  | _ + 1, _, .refuse e, _, here => some (.ok (.error e, here))
  | _ + 1, _, .crash c, _, _ => some (.error c)
  | steps + 1, _, .attempt m, src, here =>
    match run steps m src here with
    | none => none
    | some (.error c) => some (.error c)
    | some (.ok (result, next)) => some (.ok (.ok result, next))
  | steps + 1, _, .call routine, src, here => run steps routine.body src here

variable {m : Parser α} {src : Source} {here next : Nat}
  {result : Except Crash (Except SqlError α × Nat)}

/-- One step more makes no difference to a parser that has come to its end. -/
theorem run_succ {steps : Nat} (h : m.run steps src here = some result) :
    m.run (steps + 1) src here = some result := by
  induction steps generalizing α m here with
  | zero => cases h
  | succ steps ih =>
    cases m with
    | andThen m f =>
      rw [run] at h ⊢
      cases hfirst : m.run steps src here with
      | none => rw [hfirst] at h; cases h
      | some first =>
        rw [ih hfirst]
        rw [hfirst] at h
        obtain c | ⟨e | a, next⟩ := first
        · exact h
        · exact h
        · exact ih h
    | attempt m =>
      rw [run] at h ⊢
      cases hcaught : m.run steps src here with
      | none => rw [hcaught] at h; cases h
      | some caught =>
        rw [ih hcaught]
        rw [hcaught] at h
        exact h
    | call routine => exact ih h
    | _ => exact h

theorem run_mono {steps more : Nat} (hle : steps ≤ more) (h : m.run steps src here = some result) :
    m.run more src here = some result := by
  induction hle with
  | refl => exact h
  | step _ ih => exact run_succ ih

/-- Within some number of steps a parser comes to its end with this result. -/
def Comes (m : Parser α) (src : Source) (here : Nat)
    (result : Except Crash (Except SqlError α × Nat)) : Prop :=
  ∃ steps, m.run steps src here = some result

/-- A parser comes to one result at most, however many steps it is given. -/
theorem Comes.unique {other : Except Crash (Except SqlError α × Nat)}
    (h : m.Comes src here result) (hother : m.Comes src here other) : result = other := by
  obtain ⟨steps, h⟩ := h
  obtain ⟨others, hother⟩ := hother
  have h := run_mono (Nat.le_max_left steps others) h
  have hother := run_mono (Nat.le_max_right steps others) hother
  exact Option.some_inj.1 (h.symm.trans hother)

theorem comes_pure (a : α) : (pure a : Parser α).Comes src here (.ok (.ok a, here)) := ⟨1, rfl⟩

theorem Comes.bind {a : α} {f : α → Parser β} {result : Except Crash (Except SqlError β × Nat)}
    (h : m.Comes src here (.ok (.ok a, next))) (hf : (f a).Comes src next result) :
    (m >>= f).Comes src here result := by
  obtain ⟨first, h⟩ := h
  obtain ⟨second, hf⟩ := hf
  have h := run_mono (Nat.le_max_left first second) h
  have hf := run_mono (Nat.le_max_right first second) hf
  exact ⟨max first second + 1, by simp only [Bind.bind, run, h, hf]⟩

theorem Comes.bind_error {e : SqlError} (h : m.Comes src here (.ok (.error e, next)))
    (f : α → Parser β) : (m >>= f).Comes src here (.ok (.error e, next)) := by
  obtain ⟨steps, h⟩ := h
  exact ⟨steps + 1, by simp only [Bind.bind, run, h]⟩

theorem Comes.attempt {result : Except SqlError α} (h : m.Comes src here (.ok (result, next))) :
    m.attempt.Comes src here (.ok (.ok result, next)) := by
  obtain ⟨steps, h⟩ := h
  exact ⟨steps + 1, by simp only [run, h]⟩

theorem Comes.call {routine : Routine α} (h : routine.body.Comes src here result) :
    (call routine).Comes src here result := by
  obtain ⟨steps, h⟩ := h
  exact ⟨steps + 1, h⟩

end Parser
end SqlEngine.Cursor
