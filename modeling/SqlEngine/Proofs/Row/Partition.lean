import Mathlib.Algebra.Ring.Nat
import Mathlib.Data.List.Nodup
import Mathlib.Data.List.Perm.Basic
import SqlEngine.Proofs.Grouping
import SqlEngine.Proofs.Number.Bits

/-!
# Rows in groups

Rows may repeat each other, so the groups are followed by occurrences: each row with its place in
the input. Every occurrence is in one group, together with all others of the same key and none of
another key; a group keeps the order of its rows, and the groups stand in the order of their first
rows. Two keys are the same where the rows have, column by column, cells that grouping does not
tell apart.
-/
namespace SqlEngine

/-- Two cells that are not told apart when rows are grouped. -/
inductive SameCell : Value → Value → Prop
  | null : SameCell .null .null
  | zeros {x y : Float} (hx : (x == 0) = true) (hy : (y == 0) = true) :
    SameCell (.number x) (.number y)
  | number (x : Float) : SameCell (.number x) (.number x)
  | text (s : String) : SameCell (.text s) (.text s)

section Keys

/-- Two numbers share a key if both are zeros or they are the same double. -/
theorem groupKey_number_eq {x y : Float} :
    (Value.number x).groupKey = (Value.number y).groupKey ↔
      ((x == 0) = true ∧ (y == 0) = true) ∨ x = y := by
  have hzero : ((0 : Float) == 0) = true := by decide
  simp only [Value.groupKey, GroupKey.number.injEq, Number.toBits_inj]
  constructor
  · intro h
    by_cases hx : (x == 0) = true
    · by_cases hy : (y == 0) = true
      · exact .inl ⟨hx, hy⟩
      · rw [if_pos hx, if_neg hy] at h
        exact absurd (h ▸ hzero) hy
    · by_cases hy : (y == 0) = true
      · rw [if_neg hx, if_pos hy] at h
        exact absurd (h ▸ hzero) hx
      · rw [if_neg hx, if_neg hy] at h
        exact .inr h
  · rintro (⟨hx, hy⟩ | rfl)
    · rw [if_pos hx, if_pos hy]
    · rfl

theorem groupKey_eq_iff {v w : Value} : v.groupKey = w.groupKey ↔ SameCell v w := by
  cases v with
  | null =>
    cases w with
    | null => exact ⟨fun _ => .null, fun _ => rfl⟩
    | number y => exact ⟨nofun, nofun⟩
    | text t => exact ⟨nofun, nofun⟩
  | number x =>
    cases w with
    | null => exact ⟨nofun, nofun⟩
    | number y =>
      rw [groupKey_number_eq]
      constructor
      · rintro (⟨hx, hy⟩ | rfl)
        · exact .zeros hx hy
        · exact .number x
      · rintro (_ | ⟨hx, hy⟩ | _ | _)
        · exact .inl ⟨hx, hy⟩
        · exact .inr rfl
    | text t => exact ⟨nofun, nofun⟩
  | text s =>
    cases w with
    | null => exact ⟨nofun, nofun⟩
    | number y => exact ⟨nofun, nofun⟩
    | text t =>
      constructor
      · rintro ⟨⟩
        exact .text s
      · rintro ⟨⟩
        rfl

/-- Rows have the same key if no column tells them apart; a cell that is not there is missing. -/
theorem Row.groupKey_eq_iff {columns : List String} {a b : Row} :
    a.groupKey columns = b.groupKey columns ↔ ∀ column ∈ columns,
      SameCell ((a.get? column).getD .null) ((b.get? column).getD .null) := by
  rw [groupKey, groupKey, List.map_inj_left]
  exact forall₂_congr fun column _ => SqlEngine.groupKey_eq_iff

end Keys

/-- Occurrences of rows, each with its place among all rows, are put into groups. -/
structure PartitionedBy (columns : List String) (rows : List Row)
    (groups : List (List (Row × Nat))) : Prop where
  nonempty : ∀ group ∈ groups, group ≠ []
  /-- A group holds, in their order, all occurrences with one particular key. -/
  keyed : ∀ group ∈ groups, ∃ key, group = rows.zipIdx.filter fun p => p.1.groupKey columns = key
  /-- Different groups have different keys. -/
  apart : groups.Pairwise fun group other =>
    ∀ p ∈ group, ∀ q ∈ other, p.1.groupKey columns ≠ q.1.groupKey columns
  /-- The groups come in the order of their first rows. -/
  ordered : groups.Pairwise fun group other => ∀ p ∈ group.head?, ∀ q ∈ other.head?, p.2 < q.2
  /-- Every occurrence is in exactly one group. -/
  covers : ∀ p ∈ rows.zipIdx, ∃! place : Nat, ∃ group ∈ groups[place]?, p ∈ group
  sizes : (groups.map List.length).sum = rows.length

section Occurrences

variable {α κ : Type} [DecidableEq κ] {key : α → κ} {items : List α}

theorem pairwise_keys_gathered (key : α → κ) (items : List α) :
    (gathered key items).Pairwise fun group other => ∀ a ∈ group, ∀ b ∈ other, key a ≠ key b := by
  rw [gathered, List.pairwise_map]
  have hfirsts := List.pairwise_map.1 (nodup_map_firstsBy key items)
  refine hfirsts.imp fun {first second} hne a ha b hb => ?_
  rw [of_decide_eq_true (List.mem_filter.1 ha).2, of_decide_eq_true (List.mem_filter.1 hb).2]
  exact hne

/-- The first members of the groups stand in the order of the things. -/
theorem pairwise_head_gathered {before : α → α → Prop} (h : items.Pairwise before) :
    (gathered key items).Pairwise fun group other =>
      ∀ a ∈ group.head?, ∀ b ∈ other.head?, before a b := by
  rw [gathered, List.pairwise_map]
  have hfirsts := h.sublist (firstsBy_sublist key items)
  refine hfirsts.imp_of_mem fun {first second} hfirst hsecond hbefore a ha b hb => ?_
  rw [head?_filter_of_mem_firstsBy hfirst] at ha
  rw [head?_filter_of_mem_firstsBy hsecond] at hb
  cases ha
  cases hb
  exact hbefore

/-- Everything is in a group. -/
theorem exists_mem_gathered (key : α → κ) {a : α} (h : a ∈ items) :
    ∃ group ∈ gathered key items, a ∈ group := by
  obtain ⟨first, hfirst, hkey⟩ :=
    List.mem_map.1 (mem_map_firstsBy.2 (List.mem_map_of_mem (f := key) h))
  exact ⟨_, List.mem_map_of_mem hfirst, List.mem_filter.2 ⟨h, decide_eq_true hkey.symm⟩⟩

/-- Things that do not repeat each other are in the groups just once. -/
theorem flatten_gathered_perm (h : items.Nodup) : (gathered key items).flatten.Perm items := by
  refine (List.perm_ext_iff_of_nodup ?_ h).2 fun a => ?_
  · refine List.nodup_flatten.2 ⟨fun group hgroup => ?_, ?_⟩
    · obtain ⟨first, -, rfl⟩ := List.mem_map.1 hgroup
      exact h.filter _
    · exact (pairwise_keys_gathered key items).imp fun hne a ha hb => hne a ha a hb rfl
  · constructor
    · intro ha
      obtain ⟨group, hgroup, ha⟩ := List.mem_flatten.1 ha
      obtain ⟨first, -, rfl⟩ := List.mem_map.1 hgroup
      exact (List.mem_filter.1 ha).1
    · intro ha
      obtain ⟨group, hgroup, ha⟩ := exists_mem_gathered key ha
      exact List.mem_flatten.2 ⟨group, hgroup, ha⟩

/-- A thing is in one group only. -/
theorem place_unique {a : α} {i j : Nat} {group other : List α}
    (hi : group ∈ (gathered key items)[i]?) (ha : a ∈ group)
    (hj : other ∈ (gathered key items)[j]?) (ha' : a ∈ other) : i = j := by
  have hkeys := List.pairwise_iff_getElem.1 (pairwise_keys_gathered key items)
  obtain ⟨hilt, rfl⟩ := List.getElem?_eq_some_iff.1 hi
  obtain ⟨hjlt, rfl⟩ := List.getElem?_eq_some_iff.1 hj
  rcases Nat.lt_trichotomy i j with hlt | heq | hlt
  · exact absurd rfl (hkeys i j hilt hjlt hlt a ha a ha')
  · exact heq
  · exact absurd rfl (hkeys j i hjlt hilt hlt a ha' a ha)

end Occurrences

/-- Occurrences stand in the order of their places. -/
theorem pairwise_zipIdx (rows : List Row) : rows.zipIdx.Pairwise fun p q => p.2 < q.2 := by
  have hplaces : (rows.zipIdx.map Prod.snd).Pairwise (· < ·) := by
    rw [List.zipIdx_map_snd]
    exact List.pairwise_lt_range' 1
  exact List.pairwise_map.1 hplaces

theorem partitionedBy_gathered (columns : List String) (rows : List Row) :
    PartitionedBy columns rows (gathered (fun p => p.1.groupKey columns) rows.zipIdx) := by
  have hplaces := pairwise_zipIdx rows
  refine ⟨?_, ?_, pairwise_keys_gathered _ _, pairwise_head_gathered hplaces, ?_, ?_⟩
  · rintro group hgroup rfl
    rw [← groupsBy_eq_gathered] at hgroup
    obtain ⟨first, -, hhead⟩ := head?_of_mem_groupsBy hgroup
    cases hhead
  · intro group hgroup
    obtain ⟨first, -, rfl⟩ := List.mem_map.1 hgroup
    exact ⟨_, rfl⟩
  · intro p hp
    obtain ⟨group, hgroup, hmem⟩ := exists_mem_gathered (fun p => p.1.groupKey columns) hp
    obtain ⟨place, hplace⟩ := List.getElem?_of_mem hgroup
    refine ⟨place, ⟨group, hplace, hmem⟩, ?_⟩
    rintro other ⟨group', hplace', hmem'⟩
    exact place_unique hplace' hmem' hplace hmem
  · have hnodup : rows.zipIdx.Nodup := by
      refine hplaces.imp fun {p q} hlt => ?_
      rintro rfl
      exact Nat.lt_irrefl _ hlt
    rw [← List.length_flatten, (flatten_gathered_perm hnodup).length_eq, List.length_zipIdx]

/-- Rows are grouped as their occurrences are. -/
theorem partition_eq_gathered {columns : List String} (hcolumns : columns ≠ []) (rows : List Row) :
    partition columns rows =
      (gathered (fun p => p.1.groupKey columns) rows.zipIdx).map (·.map Prod.fst) := by
  rw [← groupsBy_eq_gathered, ← groupsBy_map (Row.groupKey columns), List.zipIdx_map_fst]
  exact if_neg (by simpa using hcolumns)

/-- Grouping puts every row with those of its key, and without columns all rows together. -/
theorem partition_groups_rows (columns : List String) (rows : List Row) :
    (∀ a b : Row, a.groupKey columns = b.groupKey columns ↔ ∀ column ∈ columns,
      SameCell ((a.get? column).getD .null) ((b.get? column).getD .null)) ∧
    if columns = [] then partition columns rows = [rows]
    else ∃ groups, partition columns rows = groups.map (·.map Prod.fst) ∧
      PartitionedBy columns rows groups := by
  refine ⟨fun a b => Row.groupKey_eq_iff, ?_⟩
  by_cases hcolumns : columns = []
  · rw [if_pos hcolumns, hcolumns]
    rfl
  · rw [if_neg hcolumns]
    exact ⟨_, partition_eq_gathered hcolumns rows, partitionedBy_gathered columns rows⟩

end SqlEngine
