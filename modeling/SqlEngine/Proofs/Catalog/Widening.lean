import Mathlib.Data.List.Nodup
import SqlEngine.Proofs.Catalog.WellFormed
import SqlEngine.Proofs.Query.Without

/-!
# A table with one more column

ALTER TABLE writes a missing value under the new name into every row of its table. Taken without
the new column the catalog is what it was before, and so are the answers to the queries that do not
mention the column.
-/
namespace SqlEngine

/-- Without the column that was added, the table is the one it was added to. -/
theorem Table.without_addColumn {table wider : Table} {column : Column}
    (h : table.addColumn column = .ok wider) :
    wider.without column.name = table.without column.name := by
  rw [addColumn] at h
  split at h
  · cases h
  · cases h
    have hown : Text.isOther column.name column.name = false :=
      Text.isOther_eq_false.2 (Text.sameName_refl _)
    have hrows : (table.rows.map fun row => row.set column.name .null).map
        (·.without column.name) = table.rows.map (·.without column.name) := by
      rw [List.map_map]
      refine List.map_congr_left fun row _ => ?_
      exact Row.without_set_of_same (Text.sameName_refl _) row .null
    simp only [without, setColumn, hrows, List.filter_append, List.filter_cons, hown,
      List.filter_nil, Bool.false_eq_true, if_false, List.append_nil]

namespace Catalog

variable {catalog : Catalog}

/-- Under the key of a table there is no other one. -/
theorem WellFormed.eq_of_key (h : catalog.WellFormed) {name : String} {table : Table}
    (hfind : catalog.find? name = some table) {entry : String × Table}
    (hentry : entry ∈ catalog.entries) (hkey : entry.1 = table.name) : entry.2 = table := by
  have hkeys : (catalog.entries.map (·.1)).Nodup := h.order_perm.nodup_iff.1 h.order_nodup
  have hown : Text.lower name = table.name := h.keys_own _ (find?_mem hfind)
  have heq : entry = (Text.lower name, table) :=
    List.inj_on_of_nodup_map hkeys hentry (find?_mem hfind) (hkey.trans hown.symm)
  exact congrArg Prod.snd heq

/-- Without the column that was added, the catalog is what it was. -/
theorem WellFormed.without_addColumn (h : catalog.WellFormed) {s : AddColumn}
    {what : SchemaChange} {after : Catalog}
    (hadd : (Change.addColumn s).result catalog = .ok (what, after)) :
    after.without s.column.name = catalog.without s.column.name := by
  obtain ⟨table, wider, hget, hwider, rfl⟩ := Change.addColumn_cases hadd
  have hsame := Table.without_addColumn hwider
  have hname : wider.name = table.name := congrArg (·.name) hsame
  rw [without, without, Catalog.replace, List.map_map]
  refine congrArg (Catalog.mk · _) (List.map_congr_left fun entry hentry => ?_)
  obtain ⟨key, old⟩ := entry
  dsimp only [Function.comp, Prod.map, id]
  split
  · next hkey =>
    -- The entry that was replaced held the table that the column was added to.
    have hold : old = table :=
      h.eq_of_key (get_eq_ok.1 hget) hentry ((beq_iff_eq.1 hkey).trans hname)
    rw [hsame, hold]
  · rfl

end Catalog

/-- The queries that do not mention a column are answered alike by catalogs that are the same
without it. -/
theorem Query.select_congr_without {catalog other : Catalog} {column : String} {s : Select}
    (h : other.without column = catalog.without column) (hs : s.Avoids column)
    (semantics : JoinSemantics) : select semantics other s = select semantics catalog s := by
  rw [← select_without semantics other hs, h, select_without semantics catalog hs]

end SqlEngine
