import Mathlib.Data.List.Induction
import SqlEngine.Grouping

/-!
# What grouping leaves

The first things with their keys are a part of the list in its order, and each of them is the first
member of its group. Which things they are depends only on which keys are equal, not on the keys, so
two ways of telling repetitions that agree on equality leave the same things. The loop that forms
the groups keeps this true: the groups stand in the order of the first things, each holds the things
with the key of its first one, and the place kept for a key is that of its group.
-/
namespace SqlEngine

variable {α β κ κ' : Type} [DecidableEq κ] [DecidableEq κ']

/-- What repeats nothing earlier is taken from the list. -/
theorem firstsBy_sublist (key : α → κ) (items : List α) : (firstsBy key items).Sublist items := by
  induction items with
  | nil => exact .slnil
  | cons a rest ih => exact (List.filter_sublist.trans ih).cons_cons a

theorem firstsBy_map (key : β → κ) (f : α → β) (items : List α) :
    firstsBy key (items.map f) = (firstsBy (fun a => key (f a)) items).map f := by
  induction items with
  | nil => rfl
  | cons a rest ih =>
    rw [List.map_cons, firstsBy, firstsBy, ih, List.map_cons, List.filter_map]
    rfl

/-- Keys that are equal for the same members tell the same things apart. -/
theorem firstsBy_congr {key : α → κ} {other : α → κ'} {items : List α}
    (h : ∀ a ∈ items, ∀ b ∈ items, key a = key b ↔ other a = other b) :
    firstsBy key items = firstsBy other items := by
  induction items with
  | nil => rfl
  | cons a rest ih =>
    have hrest : firstsBy key rest = firstsBy other rest :=
      ih fun b hb c hc => h b (List.mem_cons_of_mem a hb) c (List.mem_cons_of_mem a hc)
    rw [firstsBy, firstsBy, hrest]
    refine congrArg (a :: ·) (List.filter_congr fun b hb => ?_)
    have hmem := List.mem_cons_of_mem a ((firstsBy_sublist other rest).subset hb)
    exact decide_eq_decide.2 (not_congr (h b hmem a List.mem_cons_self))

/-- A thing whose key no earlier one has is the first of those with its key. -/
theorem head?_filter_of_mem_firstsBy {key : α → κ} {items : List α} {first : α}
    (h : first ∈ firstsBy key items) :
    (items.filter fun item => key item = key first).head? = some first := by
  induction items with
  | nil => cases h
  | cons a rest ih =>
    rcases List.mem_cons.1 h with rfl | hlater
    · rw [List.filter_cons_of_pos (by simp)]
      rfl
    · obtain ⟨hmem, hkey⟩ := List.mem_filter.1 hlater
      have hne : key a ≠ key first := fun heq => of_decide_eq_true hkey heq.symm
      rw [List.filter_cons_of_neg (by simpa using hne)]
      exact ih hmem

/-- A key that was met before adds no first thing. -/
theorem firstsBy_concat (key : α → κ) (items : List α) (a : α) :
    firstsBy key (items ++ [a]) =
      firstsBy key items ++ if key a ∈ items.map key then [] else [a] := by
  induction items with
  | nil => rfl
  | cons b rest ih =>
    rw [List.cons_append, firstsBy, firstsBy, ih, List.filter_append, List.cons_append]
    by_cases hb : key a = key b
    · simp [hb]
    · split <;> simp [*]

/-- Every key has a first thing. -/
theorem mem_map_firstsBy {key : α → κ} {items : List α} {k : κ} :
    k ∈ (firstsBy key items).map key ↔ k ∈ items.map key := by
  induction items using List.reverseRecOn with
  | nil => rfl
  | append_singleton items a ih =>
    rw [firstsBy_concat, List.map_append, List.map_append, List.mem_append, List.mem_append, ih]
    split
    · next h =>
      rw [List.map_singleton, List.mem_singleton]
      exact ⟨.inl ∘ fun h => h.resolve_right List.not_mem_nil, fun hk => .inl (hk.elim id (· ▸ h))⟩
    · rfl

/-- The first things have different keys. -/
theorem nodup_map_firstsBy (key : α → κ) (items : List α) :
    ((firstsBy key items).map key).Nodup := by
  induction items using List.reverseRecOn with
  | nil => exact List.nodup_nil
  | append_singleton items a ih =>
    rw [firstsBy_concat, List.map_append]
    split
    · rwa [List.map_nil, List.append_nil]
    · next h =>
      refine List.nodup_append.2 ⟨ih, List.pairwise_singleton _ _, fun k hk l hl => ?_⟩
      rw [List.map_singleton, List.mem_singleton] at hl
      rintro rfl
      exact h (mem_map_firstsBy.1 (hl ▸ hk))

/-- What has the key of each first thing, one after another. -/
def gathered (key : α → κ) (items : List α) : List (List α) :=
  (firstsBy key items).map fun first => items.filter fun item => key item = key first

/-- A thing whose key was met before goes to the things with that key. -/
theorem gathered_concat_of_mem {key : α → κ} {items : List α} {a : α}
    (hmet : key a ∈ items.map key) {place : Nat}
    (hplace : ((firstsBy key items).map key)[place]? = some (key a)) :
    gathered key (items ++ [a]) = (gathered key items).modify place (· ++ [a]) := by
  rw [gathered, gathered, firstsBy_concat, if_pos hmet, List.append_nil]
  refine List.ext_getElem? fun i => ?_
  rw [List.getElem?_modify, List.getElem?_map, List.getElem?_map]
  cases hfirst : (firstsBy key items)[i]? with
  | none => rfl
  | some first =>
    have hi : ((firstsBy key items).map key)[i]? = some (key first) := by
      rw [List.getElem?_map, hfirst]
      rfl
    have hlt : place < ((firstsBy key items).map key).length := by
      obtain ⟨h, -⟩ := List.getElem?_eq_some_iff.1 hplace
      exact h
    have hsame : place = i ↔ key a = key first := by
      rw [← List.getElem?_inj hlt (nodup_map_firstsBy key items), hplace, hi, Option.some.injEq]
    simp only [Option.map_some, Option.map_eq_map, List.filter_append, hsame]
    by_cases h : key a = key first <;> simp [h]

/-- A thing with a key of its own makes a group of its own. -/
theorem gathered_concat_of_not_mem {key : α → κ} {items : List α} {a : α}
    (hnew : key a ∉ items.map key) :
    gathered key (items ++ [a]) = gathered key items ++ [[a]] := by
  have hother : ∀ b ∈ items, key b ≠ key a := fun b hb heq =>
    hnew (heq ▸ List.mem_map_of_mem hb)
  rw [gathered, gathered, firstsBy_concat, if_neg hnew, List.map_append, List.map_singleton,
    List.filter_append]
  refine congrArg₂ (· ++ ·) (List.map_congr_left fun first hfirst => ?_) ?_
  · have hne : key a ≠ key first := (hother first ((firstsBy_sublist key items).subset hfirst)).symm
    rw [List.filter_append, List.filter_cons_of_neg (by simpa using hne), List.filter_nil,
      List.append_nil]
  · have hnone : (items.filter fun b => key b = key a) = [] :=
      List.filter_eq_nil_iff.2 fun b hb => by simpa using hother b hb
    rw [hnone, List.filter_cons_of_pos (by simp)]
    rfl

theorem getElem?_concat_eq {as : List α} {a b : α} {i : Nat} :
    (as ++ [b])[i]? = some a ↔ as[i]? = some a ∨ (i = as.length ∧ b = a) := by
  grind

/-- The groups that the loop has formed of some things. -/
structure Groups.Formed (key : α → κ) (items : List α) (groups : Groups α κ) : Prop where
  /-- The place kept for a key is that of its first thing among the first things. -/
  places : ∀ k place, groups.places.lookup k = some place ↔
    ((firstsBy key items).map key)[place]? = some k
  members : groups.toLists = gathered key items

/-- A further thing is put into its group. -/
theorem Groups.Formed.add {key : α → κ} {items : List α} {groups : Groups α κ}
    (h : groups.Formed key items) (a : α) :
    (groups.add (key a) a).Formed key (items ++ [a]) := by
  have hmembers : groups.members.toList.map (·.toList) = gathered key items := h.members
  rw [Groups.add]
  cases hlookup : groups.places.lookup (key a) with
  | some place =>
    have hplace := (h.places (key a) place).1 hlookup
    have hmet : key a ∈ items.map key := mem_map_firstsBy.1 (List.mem_of_getElem? hplace)
    refine ⟨fun k i => ?_, ?_⟩
    · rw [firstsBy_concat, if_pos hmet, List.append_nil]
      exact h.places k i
    · rw [gathered_concat_of_mem hmet hplace, ← hmembers, Groups.toLists, Array.toList_modify]
      refine List.ext_getElem? fun i => ?_
      rw [List.getElem?_map, List.getElem?_modify, List.getElem?_modify, List.getElem?_map]
      cases groups.members.toList[i]? with
      | none => rfl
      | some group =>
        by_cases hi : place = i <;> simp [hi]
  | none =>
    have hnew : key a ∉ items.map key := by
      intro hmem
      obtain ⟨place, hplace⟩ := List.getElem?_of_mem (mem_map_firstsBy.2 hmem)
      rw [(h.places (key a) place).2 hplace] at hlookup
      cases hlookup
    have hsize : groups.members.size = ((firstsBy key items).map key).length := by
      have hlength := congrArg List.length hmembers
      simpa [gathered] using hlength
    refine ⟨fun k i => ?_, ?_⟩
    · rw [firstsBy_concat, if_neg hnew, List.map_append, List.map_singleton, getElem?_concat_eq,
        ← h.places, List.lookup_cons, hsize]
      cases hk : k == key a with
      | true =>
        rw [beq_iff_eq.1 hk, hlookup]
        simp [eq_comm]
      | false =>
        have hne : key a ≠ k := fun heq => by simp [heq] at hk
        simp [hne]
    · rw [gathered_concat_of_not_mem hnew, ← hmembers, Groups.toLists, Array.toList_push,
        List.map_append]
      rfl

/-- A loop over some things forms the groups of their first things. -/
theorem groupsBy_eq_gathered (key : α → κ) (items : List α) :
    groupsBy key items = gathered key items := by
  have hformed : (items.foldl (fun groups item => groups.add (key item) item)
      (Groups.empty : Groups α κ)).Formed key items := by
    induction items using List.reverseRecOn with
    | nil => exact ⟨fun k place => ⟨nofun, nofun⟩, rfl⟩
    | append_singleton items a ih =>
      rw [List.foldl_append]
      exact ih.add a
  exact hformed.members

/-- Things that are made one by one of others are grouped as those are. -/
theorem groupsBy_map (key : β → κ) (f : α → β) (items : List α) :
    groupsBy key (items.map f) = (groupsBy (fun a => key (f a)) items).map (·.map f) := by
  rw [groupsBy_eq_gathered, groupsBy_eq_gathered, gathered, gathered, firstsBy_map, List.map_map,
    List.map_map]
  exact List.map_congr_left fun first _ => List.filter_map

/-- A group begins with one of the things that were grouped. -/
theorem head?_of_mem_groupsBy {key : α → κ} {items group : List α}
    (h : group ∈ groupsBy key items) : ∃ first ∈ items, group.head? = some first := by
  rw [groupsBy_eq_gathered] at h
  obtain ⟨first, hfirst, rfl⟩ := List.mem_map.1 h
  exact ⟨first, (firstsBy_sublist key items).subset hfirst, head?_filter_of_mem_firstsBy hfirst⟩

/-- A group of rows begins with one of them, unless there are no rows. -/
theorem head?_of_mem_partition {columns : List String} {rows group : List Row}
    (h : group ∈ partition columns rows) :
    (rows = [] ∧ group = []) ∨ ∃ first ∈ rows, group.head? = some first := by
  rw [partition, partitionOn] at h
  split at h
  · obtain rfl := List.mem_singleton.1 h
    cases group with
    | nil => exact .inl ⟨rfl, rfl⟩
    | cons first rest => exact .inr ⟨first, List.mem_cons_self, rfl⟩
  · exact .inr (head?_of_mem_groupsBy h)

/-- Groups hold nothing but the rows that were grouped. -/
theorem mem_of_mem_partition {columns : List String} {rows group : List Row}
    (h : group ∈ partition columns rows) {row : Row} (hrow : row ∈ group) : row ∈ rows := by
  rw [partition, partitionOn] at h
  split at h
  · rwa [List.mem_singleton.1 h] at hrow
  · rw [groupsBy_eq_gathered] at h
    obtain ⟨first, -, rfl⟩ := List.mem_map.1 h
    exact (List.mem_filter.1 hrow).1

end SqlEngine
