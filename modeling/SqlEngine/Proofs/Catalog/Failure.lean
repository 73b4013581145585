import SqlEngine.Outcome
import SqlEngine.Proofs.Computation

/-!
# Failures leave no trace

A change hands its catalog on also where it fails, with whatever it has written up to there. The
changes of the statements are atomic all the same: they look and check first, which writes nothing,
and from their first write on they do not fail. The one that writes before it knows is the removal
of a table, and what it has removed is nothing if it fails. No two writes are compared here, and
nothing is said of what a change writes when it succeeds.
-/
namespace SqlEngine

namespace Catalog

variable {catalog : Catalog} {name : String}

theorem get_eq_ok {table : Table} :
    catalog.get name = .ok table ↔ catalog.find? name = some table := by
  unfold get
  cases catalog.find? name <;> simp

theorem get_eq_error {e : SqlError} :
    catalog.get name = .error e ↔
      catalog.find? name = none ∧ .tableNotFound (Text.lower name) = e := by
  unfold get
  cases catalog.find? name <;> simp

end Catalog

namespace Change

variable {α β : Type}

/-- A change that fails leaves the catalog as it was. -/
def Atomic (change : Change α) : Prop :=
  ∀ catalog e after, change.run catalog = .error e after → after = catalog

/-- What was written before a failure stays written, so not every change is atomic. -/
example : ¬ Atomic (do modify fun _ => .empty; throw (.tableNotFound "t") : Change Unit) := by
  intro h
  have hempty := h ⟨[], ["t"]⟩ _ _ rfl
  cases hempty

/-- A change that writes nothing, whether it fails or not. -/
structure Reads (change : Change α) : Prop where
  atomic : change.Atomic
  unchanged : ∀ catalog a after, change.run catalog = .ok a after → after = catalog

/-- A change that does not fail, whatever the catalog. -/
def Succeeds (change : Change α) : Prop :=
  ∀ catalog, ∃ a after, change.run catalog = .ok a after

theorem Succeeds.atomic {change : Change α} (h : change.Succeeds) : change.Atomic := by
  intro catalog e after hrun
  obtain ⟨a, other, hok⟩ := h catalog
  rw [hok] at hrun
  cases hrun

section Steps

variable {x : Change α} {f : α → Change β}

/-- What may follow on reading may follow on nothing: the catalog is still the first one. -/
theorem Reads.bind_atomic (h : x.Reads) (hf : ∀ a, (f a).Atomic) : Atomic (x >>= f) := by
  intro catalog e after hrun
  rw [EStateM.run_bind] at hrun
  cases hx : x.run catalog with
  | ok a next =>
    rw [hx] at hrun
    obtain rfl := h.unchanged catalog a next hx
    exact hf a next e after hrun
  | error e' next =>
    rw [hx] at hrun
    cases hrun
    exact h.atomic catalog e after hx

/-- A change that goes on without failing can fail only where it did before. -/
theorem Atomic.bind_succeeds (h : x.Atomic) (hf : ∀ a, (f a).Succeeds) : Atomic (x >>= f) := by
  intro catalog e after hrun
  rw [EStateM.run_bind] at hrun
  cases hx : x.run catalog with
  | ok a next =>
    rw [hx] at hrun
    obtain ⟨b, last, hok⟩ := hf a next
    exact nomatch hok.symm.trans hrun
  | error e' next =>
    rw [hx] at hrun
    cases hrun
    exact h catalog e after hx

theorem Succeeds.bind (h : x.Succeeds) (hf : ∀ a, (f a).Succeeds) : Succeeds (x >>= f) := by
  intro catalog
  obtain ⟨a, next, hx⟩ := h catalog
  obtain ⟨b, after, hnext⟩ := hf a next
  exact ⟨b, after, by rw [EStateM.run_bind, hx]; exact hnext⟩

end Steps

theorem succeeds_pure (a : α) : Succeeds (pure a : Change α) := fun catalog => ⟨a, catalog, rfl⟩

theorem succeeds_modify (f : Catalog → Catalog) : Succeeds (modify f : Change Unit) :=
  fun catalog => ⟨(), f catalog, rfl⟩

theorem succeeds_write (table : Table) : (write table).Succeeds := succeeds_modify _

theorem atomic_throw (e : SqlError) : Atomic (throw e : Change α) := by
  rintro catalog _ _ ⟨⟩
  rfl

theorem reads_get : Reads (get : Change Catalog) where
  atomic := nofun
  unchanged := by
    rintro catalog _ _ ⟨⟩
    rfl

theorem reads_lift (x : Except SqlError α) : Reads (liftM x : Change α) := by
  cases x with
  | error e => exact ⟨atomic_throw e, nofun⟩
  | ok a =>
    refine ⟨(succeeds_pure a).atomic, ?_⟩
    rintro catalog _ _ ⟨⟩
    rfl

theorem Reads.bind {x : Change α} {f : α → Change β} (h : x.Reads) (hf : ∀ a, (f a).Reads) :
    Reads (x >>= f) where
  atomic := h.bind_atomic fun a => (hf a).atomic
  unchanged := by
    intro catalog b after hrun
    rw [EStateM.run_bind] at hrun
    cases hx : x.run catalog with
    | ok a next =>
      rw [hx] at hrun
      rw [(hf a).unchanged next b after hrun, h.unchanged catalog a next hx]
    | error e next =>
      rw [hx] at hrun
      cases hrun

theorem reads_table (name : String) : (table name).Reads :=
  reads_get.bind fun catalog => reads_lift (catalog.get name)

theorem drop_of_get {name : String} {catalog : Catalog} {table : Table}
    (hget : catalog.get name = .ok table) :
    (drop name).run catalog = .ok table ⟨catalog.entries.filter (·.1 != Text.lower name),
      catalog.order.filter (· != Text.lower name)⟩ := by
  have hfound : catalog.entries.lookup (Text.lower name) = some table := Catalog.get_eq_ok.1 hget
  simp only [drop, EStateM.run_bind, EStateM.run_get, EStateM.run_modify, hfound]
  rfl

/-- A removal that finds no table has removed nothing. -/
theorem drop_of_error {name : String} {catalog : Catalog} {e : SqlError}
    (hget : catalog.get name = .error e) : (drop name).run catalog = .error e catalog := by
  obtain ⟨hfind, rfl⟩ := Catalog.get_eq_error.1 hget
  have hnone : catalog.entries.lookup (Text.lower name) = none := hfind
  have hkept : catalog.entries.filter (·.1 != Text.lower name) = catalog.entries := by
    rw [List.filter_eq_self]
    intro entry hentry
    have hkey := List.lookup_eq_none_iff.1 hnone entry hentry
    simpa [bne, Bool.beq_comm] using hkey
  simp only [drop, EStateM.run_bind, EStateM.run_get, EStateM.run_modify, hnone, hkept]
  rfl

theorem atomic_drop (name : String) : (drop name).Atomic := by
  intro catalog e after hrun
  cases hget : catalog.get name with
  | ok table =>
    rw [drop_of_get hget] at hrun
    cases hrun
  | error e' =>
    rw [drop_of_error hget] at hrun
    cases hrun
    rfl

theorem atomic_create (table : Table) : (create table).Atomic := by
  refine reads_get.bind_atomic fun catalog => ?_
  split
  · exact (atomic_throw _).bind_succeeds fun _ =>
      (succeeds_modify _).bind fun _ => succeeds_modify _
  · exact ((succeeds_modify _).bind fun _ => succeeds_modify _).atomic

/-- What is settled by looking at a table leaves nothing to fail behind the first write. -/
theorem atomic_settled {name : String} {settle : Table → Except SqlError α}
    {f : Table → α → Change β} (hf : ∀ table settled, (f table settled).Succeeds) :
    Atomic (do
      let table ← table name
      let settled ← settle table
      f table settled) :=
  (reads_table name).bind_atomic fun table =>
    (reads_lift (settle table)).bind_atomic fun settled => (hf table settled).atomic

/-- Writing a table and telling something of it does not fail. -/
theorem succeeds_told (changed : Table) (a : α) :
    Succeeds (do write changed; return a : Change α) :=
  (succeeds_write changed).bind fun _ => succeeds_pure a

/-- All values are computed before the first row is added. -/
theorem atomic_insert (s : Insert) : (insert s).Atomic :=
  atomic_settled fun table rows => succeeds_told (table.insertRows rows) _

/-- All rows are computed before the first one is changed. -/
theorem atomic_update (s : Update) : (update s).Atomic :=
  atomic_settled fun _ _ => succeeds_told _ _

/-- All rows are marked before the first one is removed. -/
theorem atomic_delete (s : Delete) : (delete s).Atomic :=
  atomic_settled fun _ _ => succeeds_told _ _

/-- The new name is looked for among the columns before the first row gets a cell. -/
theorem atomic_addColumn (s : AddColumn) : (addColumn s).Atomic :=
  atomic_settled fun _ wider => succeeds_told wider _

theorem atomic_createTable (s : CreateTable) : (createTable s).Atomic := by
  refine reads_get.bind_atomic fun catalog => ?_
  split
  · split
    · exact (succeeds_pure _).atomic
    · exact atomic_throw _
  · split
    · exact atomic_throw _
    · exact (atomic_create _).bind_succeeds fun _ => succeeds_pure _

theorem atomic_dropTable (s : DropTable) : (dropTable s).Atomic := by
  refine reads_get.bind_atomic fun catalog => ?_
  split
  · exact (succeeds_pure _).atomic
  · exact (atomic_drop _).bind_succeeds fun table => succeeds_pure _

end Change

open Change

/-- A statement of any kind that fails leaves the catalog as it was. -/
theorem Statement.atomic_run (semantics : JoinSemantics) (s : Statement) :
    (s.run semantics).Atomic := by
  cases s with
  | select s =>
    refine reads_get.bind_atomic fun catalog => ?_
    exact (reads_lift _).atomic.bind_succeeds fun _ => succeeds_pure _
  | showTables =>
    refine reads_get.bind_atomic fun catalog => ?_
    split <;> exact (succeeds_pure _).atomic
  | describe table => exact (reads_table table).atomic.bind_succeeds fun _ => succeeds_pure _
  | insert s => exact (atomic_insert s).bind_succeeds fun _ => succeeds_pure _
  | update s => exact (atomic_update s).bind_succeeds fun _ => succeeds_pure _
  | delete s => exact (atomic_delete s).bind_succeeds fun _ => succeeds_pure _
  | createTable s => exact (atomic_createTable s).bind_succeeds fun _ => succeeds_pure _
  | createIndex s => exact (succeeds_pure _).atomic.bind_succeeds fun _ => succeeds_pure _
  | dropTable s => exact (atomic_dropTable s).bind_succeeds fun _ => succeeds_pure _
  | addColumn s => exact (atomic_addColumn s).bind_succeeds fun _ => succeeds_pure _

end SqlEngine
