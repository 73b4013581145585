import SqlEngine.Proofs.Engine.Run

/-!
# Names of columns in small letters

Whatever scripts an engine runs, the columns of its tables have their names in small letters: they
are created and added under such names, and no other statement touches the columns. A name that
finds a column has that column's name as its small form, so names that find different columns do not
become the same name when they are taken in small letters.
-/
namespace SqlEngine

open Grammar

namespace Catalog

/-- The columns of all tables have their names in small letters. -/
def SmallNames (catalog : Catalog) : Prop :=
  ∀ entry ∈ catalog.entries, NamesSmall entry.2.columns

namespace SmallNames

variable {catalog after : Catalog}

theorem of_get (h : catalog.SmallNames) {name : String} {table : Table}
    (found : catalog.get name = .ok table) : NamesSmall table.columns :=
  h _ (find?_mem (get_eq_ok.1 found))

theorem replace (h : catalog.SmallNames) {table : Table} (hsmall : NamesSmall table.columns) :
    (catalog.replace table).SmallNames := by
  intro entry hentry
  obtain ⟨⟨key, old⟩, hold, rfl⟩ := List.mem_map.1 hentry
  dsimp only
  split
  · exact hsmall
  · exact h _ hold

theorem create (h : catalog.SmallNames) {table : Table} (small : NamesSmall table.columns)
    (created : catalog.create table = .ok after) : after.SmallNames := by
  rw [Catalog.create_eq] at created
  split at created
  · cases created
  · cases created
    exact List.forall_mem_cons.2 ⟨small, h⟩

theorem drop (h : catalog.SmallNames) {name : String} {table : Table}
    (dropped : catalog.drop name = .ok (table, after)) : after.SmallNames := by
  rw [Catalog.drop_eq] at dropped
  obtain ⟨found, -, dropped⟩ := bind_eq_ok.1 dropped
  cases dropped
  exact fun entry hentry => h entry (List.mem_of_mem_filter hentry)

theorem addColumn (h : catalog.SmallNames) {name : String} {table wider : Table} {column : Column}
    (found : catalog.get name = .ok table) (small : Text.lower column.name = column.name)
    (ok : table.addColumn column = .ok wider) : (catalog.replace wider).SmallNames := by
  rw [Table.addColumn] at ok
  split at ok
  · cases ok
  · cases ok
    refine h.replace (List.forall_mem_append.2 ⟨h.of_get found, ?_⟩)
    exact List.forall_mem_singleton.2 small

/-- A statement whose own columns have small names leads to catalogs with small names. -/
theorem of_leadsTo (h : catalog.SmallNames) {statement : Statement}
    (proper : statement.ColumnsProper) (added : statement.AddedSmall)
    (leads : statement.LeadsTo catalog after) : after.SmallNames := by
  cases leads with
  | unchanged => exact h
  | insert hget hrows =>
    refine h.replace ?_
    rw [Table.columns_insertRows]
    exact h.of_get hget
  | update hget hassignments hchanges =>
    have hsmall := h.of_get hget
    exact h.replace hsmall
  | delete hget hmarks =>
    have hsmall := h.of_get hget
    exact h.replace hsmall
  | createTable hrepeated hcreate =>
    refine h.create ?_ hcreate
    exact proper.2
  | dropTable hdrop => exact h.drop hdrop
  | addColumn hget hwider => exact h.addColumn hget added hwider

theorem kept : Catalog.Kept SmallNames := by
  intro semantics limit sql statement before after outcome hread hexecute h
  exact h.of_leadsTo (Statement.ofText_columnsProper hread) (Statement.ofText_addedSmall hread)
    (Statement.leadsTo_of_execute hexecute)

theorem empty : Catalog.empty.SmallNames := by
  rintro _ ⟨⟩

end SmallNames
end Catalog

/-- The columns of every table that an engine comes to have are named in small letters. -/
theorem Engine.smallNames_run (settings : Settings) (commands : List Command) :
    ((Engine.start settings).run commands).catalog.SmallNames :=
  run_keeps Catalog.SmallNames.kept Catalog.SmallNames.empty (Engine.start settings) commands
    Catalog.SmallNames.empty

end SqlEngine
