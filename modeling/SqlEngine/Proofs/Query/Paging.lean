import SqlEngine.Proofs.Query.Columns
import SqlEngine.Proofs.Query.Having
import SqlEngine.Proofs.Query.Sorting

/-!
# Sorted answers and their pages

The sort keys of a result row are computed together with the row and stay with it while repetitions
are dropped, the rows are sorted and a page is cut out. LIMIT and OFFSET cut a page out of one and
the same sorted list, so pages of any size that follow one another make up the whole answer.
-/
namespace SqlEngine

/-- A query with a page in the place of its own. -/
def Select.paged (s : Select) (limit offset : Option Nat) : Select := { s with limit, offset }

namespace Query

/-- A result row was made of a row or of a group of rows, and so were its sort keys, which see the
result row first. -/
inductive MadeFrom (s : Select) (items : List ListItem) (rows : List Row) (p : Projected) : Prop
  | row {source : Row} (plain : isGrouped s = false) (mem : source ∈ rows)
    (row_eq : project items (.row source) (some source) = .ok p.row)
    (keys_eq : sortKeys s.orderBy (.layered p.row source) = .ok p.keys)
  | group {group : List Row} (grouped : isGrouped s = true) (mem : group ∈ groupsOf s rows)
    (row_eq : project items (.group group .empty) group.head? = .ok p.row)
    (keys_eq : sortKeys s.orderBy (.group group p.row) = .ok p.keys)

variable {semantics : JoinSemantics} {catalog : Catalog} {s : Select}

theorem madeFrom_of_mem {items : List ListItem} {rows : List Row} {output : List Projected}
    (h : outputRows s items rows = .ok output) {p : Projected} (hp : p ∈ output) :
    MadeFrom s items rows p := by
  rw [outputRows] at h
  split at h
  · next hgrouped =>
    obtain ⟨made, hmade, h⟩ := bind_eq_ok.1 h
    cases h
    obtain ⟨found, hfound, hp⟩ := List.mem_filterMap.1 hp
    obtain rfl : found = some p := hp
    obtain ⟨group, hgroup, hproject⟩ := exists_of_mem_mapM hmade hfound
    obtain ⟨row, hrow, hproject⟩ := bind_eq_ok.1 hproject
    obtain ⟨kept, -, hproject⟩ := bind_eq_ok.1 hproject
    cases kept with
    | false => cases hproject
    | true =>
      obtain ⟨keys, hkeys, hproject⟩ := bind_eq_ok.1 hproject
      cases hproject
      exact .group hgrouped hgroup hrow hkeys
  · next hplain =>
    obtain ⟨source, hsource, hmade⟩ := exists_of_mem_mapM h hp
    obtain ⟨row, hrow, hmade⟩ := bind_eq_ok.1 hmade
    obtain ⟨keys, hkeys, hmade⟩ := bind_eq_ok.1 hmade
    cases hmade
    exact .row (Bool.eq_false_iff.2 hplain) hsource hrow hkeys

/-- A result row has a sort key for each ORDER BY item. -/
theorem MadeFrom.length_keys {items : List ListItem} {rows : List Row} {p : Projected}
    (h : MadeFrom s items rows p) : p.keys.length = s.orderBy.length := by
  cases h with
  | row _ _ _ hkeys => exact (mapM_eq_ok.1 hkeys).length_eq.symm
  | group _ _ _ hkeys => exact (mapM_eq_ok.1 hkeys).length_eq.symm

namespace Stages

/-- The result rows that are to be sorted. -/
def unsorted (q : Stages semantics catalog s) : List Projected :=
  if s.distinct then distinctRows q.output else q.output

/-- A query goes through the same stages whatever page of it is asked for. -/
def paged (q : Stages semantics catalog s) (limit offset : Option Nat) :
    Stages semantics catalog (s.paged limit offset) :=
  ⟨q.base, q.joined, q.items, q.rows, q.output, q.sources_eq, q.checked, q.items_eq, q.rows_eq,
    q.output_eq⟩

theorem mem_output_of_unsorted {q : Stages semantics catalog s} {p : Projected}
    (h : p ∈ q.unsorted) : p ∈ q.output := by
  rw [unsorted] at h
  split at h
  · exact (firstsBy_sublist _ q.output).subset h
  · exact h

theorem length_keys (q : Stages semantics catalog s) :
    ∀ p ∈ q.unsorted, p.keys.length = s.orderBy.length :=
  fun _ hp => (madeFrom_of_mem q.output_eq (mem_output_of_unsorted hp)).length_keys

end Stages

/-- A page is a part of the rows, from its offset on. -/
theorem page_eq {α : Type} (limit offset : Option Nat) (rows : List α) :
    page offset limit rows = (rows.drop (offset.getD 0)).take (limit.getD rows.length) := by
  cases limit with
  | some n => rfl
  | none =>
    have hlength : (rows.drop (offset.getD 0)).length ≤ rows.length := by
      rw [List.length_drop]
      exact Nat.sub_le _ _
    exact (List.take_of_length_le hlength).symm

/-- Pages that follow one another make up the front of the rows. -/
theorem flatMap_pages {α : Type} (n count : Nat) (rows : List α) :
    (List.range count).flatMap (fun i => (rows.drop (i * n)).take n) = rows.take (count * n) := by
  induction count with
  | zero => simp
  | succ count ih =>
    rw [List.range_succ, List.flatMap_append, ih, List.flatMap_singleton, Nat.succ_mul,
      List.take_add]

/-- A page of a query has the cells of the sorted rows from its offset on. -/
theorem select_paged (hw : catalog.WellFormed) (q : Stages semantics catalog s)
    (limit offset : Option Nat) :
    ∃ answer, select semantics catalog (s.paged limit offset) = .ok answer ∧
      answer.rows = (((sortRows s.orderBy q.unsorted).drop (offset.getD 0)).take
        (limit.getD (sortRows s.orderBy q.unsorted).length)).map (·.row.values) := by
  have hshown := ((q.paged limit offset).listing_shown hw).1
  refine ⟨_, (q.paged limit offset).select_eq_ok, hshown.trans ?_⟩
  exact congrArg (List.map _) (page_eq limit offset _)

/-- On every catalog that scripts lead to, and for every SELECT that is answered and whose ORDER BY
items each find numbers or texts throughout, missing values aside: the result rows, each with the
sort keys that were computed with it, are freed of repetitions if these are not wanted, and then
sorted, rows with equal keys staying in order; every LIMIT and OFFSET cuts its page out of this one
list; and pages of one size that follow one another make up all of it. -/
theorem select_sorts_and_pages (settings : Settings) (commands : List Engine.Command)
    (semantics : JoinSemantics) (s : Select)
    (q : Stages semantics ((Engine.start settings).run commands).catalog s)
    (h : Sortable s.orderBy q.unsorted) :
    let catalog := ((Engine.start settings).run commands).catalog
    (∀ p ∈ q.output, MadeFrom s q.items q.rows p) ∧
    ∃ sorted, StableSort s.orderBy q.unsorted sorted ∧
      (∀ limit offset, ∃ answer, select semantics catalog (s.paged limit offset) = .ok answer ∧
        answer.rows = ((sorted.drop (offset.getD 0)).take (limit.getD sorted.length)).map
          (·.row.values)) ∧
      ∀ n, ∃ pages : Nat → Listing,
        (∀ i, select semantics catalog (s.paged (some n) (some (i * n))) = .ok (pages i)) ∧
        ∀ count, sorted.length ≤ count * n →
          (List.range count).flatMap (fun i => (pages i).rows) = sorted.map (·.row.values) := by
  intro catalog
  have hw : catalog.WellFormed := Engine.run_wellFormed settings commands
  refine ⟨fun p hp => madeFrom_of_mem q.output_eq hp, sortRows s.orderBy q.unsorted,
    stableSort_sortRows q.length_keys h, select_paged hw q, fun n => ?_⟩
  choose pages hpages hcells using fun i => select_paged hw q (some n) (some (i * n))
  refine ⟨pages, hpages, fun count hcount => ?_⟩
  simp only [hcells, Option.getD_some]
  rw [← List.map_flatMap, flatMap_pages, List.take_of_length_le hcount]

/-- Two numbers and a missing value are sorted downwards, and the last page of one row is cut
out. -/
theorem select_sorts_and_pages_numbers :
    let commands : List Engine.Command :=
      [.script "CREATE TABLE t(v);INSERT INTO t VALUES(1),(NULL),(2)"]
    let catalog := ((Engine.start .standard).run commands).catalog
    let s : Select :=
      { distinct := false, items := [.expr (.column ⟨none, "v"⟩) none "v"], source := ⟨"t", none⟩
        joins := [], filter := none, groupBy := none, having := none
        orderBy := [⟨.column ⟨none, "v"⟩, false⟩], limit := none, offset := none }
    ∃ (q : Stages .standard catalog s) (sorted : List Projected) (answer : Listing),
      q.unsorted.map (·.keys) = [[.number 1], [.null], [.number 2]] ∧
      Sortable s.orderBy q.unsorted ∧ StableSort s.orderBy q.unsorted sorted ∧
      select .standard catalog (s.paged (some 1) (some 2)) = .ok answer ∧
      answer.rows = ((sorted.drop 2).take 1).map (·.row.values) := by
  intro commands catalog s
  let table : Table := ⟨"t", [.plain "v" "TEXT"],
    [⟨[("v", .number 1)]⟩, ⟨[("v", .null)]⟩, ⟨[("v", .number 2)]⟩], []⟩
  have hcatalog : catalog = ⟨[("t", table)], ["t"]⟩ := by decide +kernel
  have hsources : (sources catalog s).toOption.map id = some (table, []) := by
    rw [hcatalog]
    decide +kernel
  have hchecked : (checkColumns [table] s).toOption.map id = some () := by decide +kernel
  have houtput : (outputRows s [.expr "v" (.column ⟨none, "v"⟩)] table.rows).toOption.map
      (fun output => output.map (·.keys)) = some [[.number 1], [.null], [.number 2]] := by
    decide +kernel
  obtain ⟨_, hsources, rfl⟩ := exists_ok_of_map hsources
  obtain ⟨_, hchecked, -⟩ := exists_ok_of_map hchecked
  obtain ⟨output, houtput, hkeys⟩ := exists_ok_of_map houtput
  have hname : Text.lower "v" = "v" := by decide +kernel
  let q : Stages .standard catalog s :=
    ⟨table, [], [.expr "v" (.column ⟨none, "v"⟩)], table.rows, output, hsources, hchecked,
      congrArg (fun name => Except.ok [ListItem.expr name (.column ⟨none, "v"⟩)]) hname, rfl,
      houtput⟩
  have hsortable : Sortable s.orderBy q.unsorted := by
    intro i hi
    obtain rfl : i = 0 := Nat.lt_one_iff.1 hi
    refine .inl fun p hp => ?_
    have hmem : p.keys ∈ [[.number 1], [.null], [.number 2]] :=
      hkeys ▸ List.mem_map_of_mem hp
    have hall : ∀ keys ∈ ([[.number 1], [.null], [.number 2]] : List (List Value)),
        (keys.getD 0 .null).isNumeric = true := by
      decide +kernel
    exact hall p.keys hmem
  obtain ⟨-, sorted, hsorted, hpage, -⟩ :=
    select_sorts_and_pages .standard commands .standard s q hsortable
  obtain ⟨answer, hanswer, hrows⟩ := hpage (some 1) (some 2)
  exact ⟨q, sorted, answer, hkeys, hsortable, hsorted, hanswer, hrows⟩

end Query
end SqlEngine
