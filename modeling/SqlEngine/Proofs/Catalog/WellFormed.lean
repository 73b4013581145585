import SqlEngine.Proofs.Catalog.Result
import SqlEngine.Proofs.Table.WellFormed
import SqlEngine.Proofs.Text.SmallForm

/-!
# Well-formed catalogs

A catalog is well formed when its tables are, each table stands under its own name, and the order
of creation lists exactly the keys, each once. Every change of the catalog keeps it well formed:
CREATE and DROP change the keys and their order alike, and the other changes leave both alone.
-/
namespace SqlEngine

namespace Catalog

structure WellFormed (catalog : Catalog) : Prop where
  order_nodup : catalog.order.Nodup
  order_perm : catalog.order.Perm catalog.keys
  keys_own : ∀ entry ∈ catalog.entries, entry.1 = entry.2.name
  tables_wellFormed : ∀ entry ∈ catalog.entries, entry.2.WellFormed

variable {catalog : Catalog}

/-- A table that is found is kept under the small form of the name that finds it. -/
theorem find?_mem {name : String} {table : Table} (h : catalog.find? name = some table) :
    (Text.lower name, table) ∈ catalog.entries := by
  obtain ⟨before, behind, hentries, -⟩ := List.lookup_eq_some_iff.1 h
  rw [hentries]
  exact List.mem_append_right _ List.mem_cons_self

theorem not_mem_keys {key : String} (h : ¬ (catalog.entries.lookup key).isSome = true) :
    key ∉ catalog.keys := by
  intro hmem
  apply h
  obtain ⟨⟨_, table⟩, hentry, rfl⟩ := List.mem_map.1 hmem
  exact List.lookup_isSome_iff.2 ⟨_, hentry, beq_self_eq_true _⟩

namespace WellFormed

theorem empty : Catalog.empty.WellFormed := by
  refine ⟨List.nodup_nil, .nil, ?_, ?_⟩
  · rintro _ ⟨⟩
  · rintro _ ⟨⟩

theorem of_get (h : catalog.WellFormed) {name : String} {table : Table}
    (found : catalog.get name = .ok table) : table.WellFormed :=
  h.tables_wellFormed _ (find?_mem (get_eq_ok.1 found))

theorem replace (h : catalog.WellFormed) {table : Table} (hw : table.WellFormed) :
    (catalog.replace table).WellFormed := by
  refine ⟨h.order_nodup, ?_, ?_, ?_⟩
  · rw [keys_replace]
    exact h.order_perm
  · intro entry hentry
    obtain ⟨⟨key, old⟩, hold, rfl⟩ := List.mem_map.1 hentry
    dsimp only
    split
    · next heq => exact beq_iff_eq.1 heq
    · exact h.keys_own _ hold
  · intro entry hentry
    obtain ⟨⟨key, old⟩, hold, rfl⟩ := List.mem_map.1 hentry
    dsimp only
    split
    · exact hw
    · exact h.tables_wellFormed _ hold

theorem create (h : catalog.WellFormed) {table : Table} {larger : Catalog} (hw : table.WellFormed)
    (created : catalog.create table = .ok larger) : larger.WellFormed := by
  rw [Catalog.create_eq] at created
  split at created
  · cases created
  · next hnew =>
    cases created
    have hfresh : table.name ∉ catalog.order := by
      rw [h.order_perm.mem_iff]
      exact not_mem_keys hnew
    refine ⟨?_, ?_, ?_, ?_⟩
    · refine List.nodup_append.2 ⟨h.order_nodup, List.pairwise_singleton _ _, ?_⟩
      intro a ha b hb heq
      apply hfresh
      rw [← List.mem_singleton.1 hb, ← heq]
      exact ha
    · exact (List.perm_append_singleton _ _).trans (h.order_perm.cons _)
    · intro entry hentry
      rcases List.mem_cons.1 hentry with rfl | hold
      · rfl
      · exact h.keys_own entry hold
    · intro entry hentry
      rcases List.mem_cons.1 hentry with rfl | hold
      · exact hw
      · exact h.tables_wellFormed entry hold

theorem drop (h : catalog.WellFormed) {name : String} {table : Table} {smaller : Catalog}
    (dropped : catalog.drop name = .ok (table, smaller)) : smaller.WellFormed := by
  rw [Catalog.drop_eq] at dropped
  obtain ⟨found, -, hok⟩ := bind_eq_ok.1 dropped
  cases hok
  refine ⟨h.order_nodup.filter _, ?_, ?_, ?_⟩
  · have hkeys : catalog.keys.filter (· != Text.lower name) =
        (catalog.entries.filter (·.1 != Text.lower name)).map (·.1) := List.filter_map
    unfold keys
    rw [← hkeys]
    exact h.order_perm.filter _
  · intro entry hentry
    exact h.keys_own entry (List.mem_filter.1 hentry).1
  · intro entry hentry
    exact h.tables_wellFormed entry (List.mem_filter.1 hentry).1

end WellFormed
end Catalog
end SqlEngine
