import SqlEngine.Row
import SqlEngine.Value.Order

/-!
# Grouping

Things are grouped by a key: the groups come in the order of their first members, and members keep
their order. The same keys tell which things are repetitions of earlier ones.
-/
namespace SqlEngine

/-- The things whose key no earlier thing has. -/
def firstsBy {α κ : Type} [DecidableEq κ] (key : α → κ) : List α → List α
  | [] => []
  | a :: rest => a :: (firstsBy key rest).filter fun b => key b ≠ key a

/-- Groups on their way: their members so far, and for each key that was met the place of its
group. -/
structure Groups (α κ : Type) where
  places : List (κ × Nat)
  members : Array (Array α)

namespace Groups

variable {α κ : Type} [DecidableEq κ]

def empty : Groups α κ := ⟨[], #[]⟩

/-- One more thing joins the group of its key. A key that was not met before begins a group. -/
def add (key : κ) (groups : Groups α κ) (item : α) : Groups α κ :=
  match groups.places.lookup key with
  | some place => { groups with members := groups.members.modify place (·.push item) }
  | none => ⟨(key, groups.members.size) :: groups.places, groups.members.push #[item]⟩

def toLists (groups : Groups α κ) : List (List α) := groups.members.toList.map (·.toList)

end Groups

/-- The things with equal keys together. -/
def groupsBy {α κ : Type} [DecidableEq κ] (key : α → κ) (items : List α) : List (List α) :=
  (items.foldl (fun groups item => groups.add (key item) item) Groups.empty).toLists

/-- The values that repeat no earlier one. -/
def distinctValues (values : List Value) : List Value := firstsBy Value.groupKey values

/-- What rows of one group have in common. A column that a row lacks counts as missing. -/
def Row.groupKey (columns : List String) (row : Row) : List GroupKey :=
  columns.map fun column => (row.getD column).groupKey

/-- Things with rows, grouped by columns of the rows. Without columns all form one group, even
when there are none. -/
def partitionOn {α : Type} (rowOf : α → Row) (columns : List String) (items : List α) :
    List (List α) :=
  if columns.isEmpty then [items] else groupsBy (fun item => (rowOf item).groupKey columns) items

/-- Rows grouped by some of their columns. -/
def partition (columns : List String) (rows : List Row) : List (List Row) :=
  partitionOn id columns rows

end SqlEngine
