import SqlEngine.Proofs.Expr.Respelling
import SqlEngine.Proofs.Join.Loops
import SqlEngine.Proofs.Query.Stages

/-!
# Queries in another spelling

The columns that a query names are looked for without regard to the case of ASCII letters. Spelling
their names anew in this way, in the select list, in the conditions, in GROUP BY, in ORDER BY and in
the conditions of joins, leaves the answer as it was.
-/
namespace SqlEngine

/-- An item of a select list; the text that it was written as goes on to name what it makes. -/
def SelectItem.respelled (r : Respelling) : SelectItem → SelectItem
  | .star => .star
  | .starOf qualifier => .starOf qualifier
  | .expr e alias? text => .expr (e.respelled r) alias? text

def JoinClause.respelled (r : Respelling) (clause : JoinClause) : JoinClause :=
  { clause with pairs := clause.pairs.map (Prod.map (·.respelled r) (·.respelled r)) }

def OrderItem.respelled (r : Respelling) (item : OrderItem) : OrderItem :=
  { item with expr := item.expr.respelled r }

/-- A query with the names of its columns in the other spelling. -/
def Select.respelled (r : Respelling) (s : Select) : Select :=
  { s with
    items := s.items.map (·.respelled r)
    joins := s.joins.map (·.respelled r)
    filter := s.filter.map (·.respelled r)
    groupBy := s.groupBy.map fun refs => refs.map (·.respelled r)
    having := s.having.map (·.respelled r)
    orderBy := s.orderBy.map (·.respelled r) }

variable (r : Respelling)

namespace Join

theorem orientedPairs_respelled (clause : JoinClause) :
    orientedPairs (clause.respelled r) = (orientedPairs clause).map (Prod.map r.spell r.spell) := by
  rw [orientedPairs, orientedPairs, JoinClause.respelled, List.map_map, List.map_map]
  refine List.map_congr_left fun pair _ => ?_
  obtain ⟨a, b⟩ := pair
  exact (apply_ite (Prod.map r.spell r.spell) _ (b.name, a.name) (a.name, b.name)).symm

theorem rowsMatch_respelled (pairs : List (String × String)) :
    rowsMatch (pairs.map (Prod.map r.spell r.spell)) = rowsMatch pairs := by
  funext left right
  rw [rowsMatch, rowsMatch, List.all_map]
  refine congrArg pairs.all (funext fun pair => ?_)
  simp only [Function.comp, Prod.map, r.get?_spell]

theorem matchesOf_respelled (pairs : List (String × String)) :
    matchesOf (pairs.map (Prod.map r.spell r.spell)) = matchesOf pairs := by
  funext right left
  rw [matchesOf, matchesOf, rowsMatch_respelled]

theorem matchesOfRight_respelled (pairs : List (String × String)) :
    matchesOfRight (pairs.map (Prod.map r.spell r.spell)) = matchesOfRight pairs := by
  funext left right
  rw [matchesOfRight, matchesOfRight, rowsMatch_respelled]

/-- Rows are joined alike in both spellings. -/
theorem joinRows_respelled (semantics : JoinSemantics) (left : List Row) (columns : List String)
    (table : Table) (clause : JoinClause) :
    joinRows semantics left columns table (clause.respelled r) =
      joinRows semantics left columns table clause := by
  have hkind : (clause.respelled r).kind = clause.kind := rfl
  simp only [joinRows, orientedPairs_respelled, hkind, nestedLoop_eq_innerRows,
    nestedLoop_eq_leftRows, rightJoin_eq_rightRows, fullJoin_eq_append, innerRows, leftRows,
    rightRows, unmatchedRight, matchesOf_respelled, matchesOfRight_respelled, rowsMatch_respelled]

end Join

namespace Query

variable {semantics : JoinSemantics} {catalog : Catalog} {s : Select}

/-- An item whose star is resolved, in the other spelling. -/
def ListItem.respelled : ListItem → ListItem
  | .star => .star
  | .columns names => .columns names
  | .expr name e => .expr name (e.respelled r)

theorem isGrouped_respelled (s : Select) : isGrouped (s.respelled r) = isGrouped s := by
  rw [isGrouped, isGrouped, Select.respelled, Option.isSome_map, List.any_map]
  refine congrArg (s.groupBy.isSome || ·) (congrArg s.items.any (funext fun item => ?_))
  cases item with
  | star | starOf => rfl
  | expr e alias? text => exact Expr.containsAggregate_respelled r e

theorem namedColumns_respelled (s : Select) :
    namedColumns (s.respelled r) = (namedColumns s).map (·.respelled r) := by
  have hgroup : (s.groupBy.map fun refs => refs.map (·.respelled r)).getD [] =
      (s.groupBy.getD []).map (·.respelled r) := by
    cases s.groupBy <;> rfl
  rw [namedColumns, namedColumns, Select.respelled, List.map_append, hgroup, List.flatMap_map,
    List.map_flatMap]
  refine congrArg (· ++ _) (congrArg (s.items.flatMap ·) (funext fun item => ?_))
  cases item with
  | star | starOf => rfl
  | expr e alias? text => exact Expr.columnRefs_respelled r e

theorem hasColumn_respelled (table : Table) (name : String) :
    table.hasColumn (r.spell name) = table.hasColumn name := by
  simp only [Table.hasColumn, Table.column?, Text.sameName_comm _ (r.spell name),
    Text.sameName_comm _ name, Text.sameName_congr (r.same name)]

/-- All columns are found in both spellings, or in none. -/
theorem checkColumns_respelled (tables : List Table) (s : Select) :
    checkColumns tables (s.respelled r) = .ok () ↔ checkColumns tables s = .ok () := by
  have hnone : ∀ query : Select, checkColumns tables query = .ok () ↔
      (namedColumns query).find? (fun ref => !tables.any (·.hasColumn ref.name)) = none := by
    intro query
    unfold checkColumns
    split
    · next href => simp [href]
    · next hmissing => simp [hmissing]
  rw [hnone, hnone, namedColumns_respelled, List.find?_map, Option.map_eq_none_iff]
  simp only [Function.comp_def, ColumnRef.respelled, hasColumn_respelled]

theorem outputName?_respelled (item : SelectItem) :
    (item.respelled r).outputName? = item.outputName? := by
  cases item with
  | star | starOf => rfl
  | expr e alias? text =>
    cases alias? with
    | some name => rfl
    | none =>
      cases e with
      | column ref => exact congrArg some (r.lower_spell ref.name)
      | literal | star | negate | binary | call => rfl

theorem resolveItem_respelled (sources : List Source) (item : SelectItem) :
    resolveItem sources (item.respelled r) =
      (do return ListItem.respelled r (← resolveItem sources item)) := by
  cases item with
  | star => rfl
  | starOf qualifier =>
    simp only [SelectItem.respelled, resolveItem]
    split <;> rfl
  | expr e alias? text =>
    have hname := outputName?_respelled r (.expr e alias? text)
    rw [SelectItem.respelled] at hname ⊢
    rw [resolveItem, resolveItem, hname]
    rfl

theorem mapM_resolveItem_respelled (sources : List Source) (items : List SelectItem) :
    (items.map (·.respelled r)).mapM (resolveItem sources) =
      (do return (← items.mapM (resolveItem sources)).map (ListItem.respelled r)) := by
  induction items with
  | nil => rfl
  | cons item rest ih =>
    rw [List.map_cons, List.mapM_cons, List.mapM_cons, ih, resolveItem_respelled]
    simp only [bind_assoc, pure_bind, List.map_cons]

theorem project_respelled (items : List ListItem) (scope : Scope) (source : Option Row) :
    project (items.map (ListItem.respelled r)) scope source = project items scope source := by
  rw [project, project, List.foldlM_map]
  refine congrArg (fun step => items.foldlM step Row.empty) (funext₂ fun row item => ?_)
  cases item with
  | star | columns => rfl
  | expr name e =>
    rw [ListItem.respelled, addItem, addItem, Expr.eval_respelled]

theorem sortKeys_respelled (orderBy : List OrderItem) (scope : Scope) :
    sortKeys (orderBy.map (·.respelled r)) scope = sortKeys orderBy scope := by
  rw [sortKeys, sortKeys, List.mapM_map]
  exact mapM_congr fun item _ => Expr.eval_respelled r scope item.expr

theorem filterRows_respelled (clause : Option Condition) (rows : List Row) :
    filterRows (clause.map (·.respelled r)) rows = filterRows clause rows := by
  induction rows with
  | nil => rfl
  | cons row rest ih => rw [filterRows, filterRows, Condition.clauseHolds_respelled, ih]

theorem groupKey_respelled (refs : List ColumnRef) :
    Row.groupKey ((refs.map (·.respelled r)).map (·.name)) = Row.groupKey (refs.map (·.name)) := by
  funext row
  rw [Row.groupKey, Row.groupKey, List.map_map, List.map_map, List.map_map]
  refine List.map_congr_left fun ref _ => ?_
  simp only [Function.comp, Row.getD, ColumnRef.respelled, r.get?_spell]

theorem partition_respelled (refs : List ColumnRef) (rows : List Row) :
    partition ((refs.map (·.respelled r)).map (·.name)) rows =
      partition (refs.map (·.name)) rows := by
  simp only [partition, partitionOn, List.isEmpty_map, groupKey_respelled]

/-- Rows are ordered alike in both spellings: the order looks at the keys alone. -/
theorem sortRows_respelled (orderBy : List OrderItem) (rows : List Projected) :
    sortRows (orderBy.map (·.respelled r)) rows = sortRows orderBy rows := by
  have hcompare : ∀ xs ys, compareKeys (orderBy.map (·.respelled r)) xs ys =
      compareKeys orderBy xs ys := by
    induction orderBy with
    | nil => exact fun _ _ => rfl
    | cons item rest ih =>
      intro xs ys
      cases xs with
      | nil => rfl
      | cons x xs =>
        cases ys with
        | nil => rfl
        | cons y ys => exact congrArg (Ordering.then _) (ih xs ys)
  simp only [sortRows, List.isEmpty_map, hcompare]

theorem projectRows_respelled (s : Select) (items : List ListItem) (rows : List Row) :
    projectRows (s.respelled r) (items.map (ListItem.respelled r)) rows =
      projectRows s items rows := by
  refine mapM_congr fun row _ => ?_
  rw [project_respelled]
  refine congrArg (_ >>= ·) (funext fun result => ?_)
  rw [Select.respelled, sortKeys_respelled]

theorem projectGroup_respelled (s : Select) (items : List ListItem) (group : List Row) :
    projectGroup (s.respelled r) (items.map (ListItem.respelled r)) group =
      projectGroup s items group := by
  rw [projectGroup, projectGroup, project_respelled]
  refine congrArg (_ >>= ·) (funext fun result => ?_)
  simp only [Select.respelled, Condition.clauseHolds_respelled, sortKeys_respelled]

theorem projectGroups_respelled (s : Select) (items : List ListItem) (rows : List Row) :
    projectGroups (s.respelled r) (items.map (ListItem.respelled r)) rows =
      projectGroups s items rows := by
  have hrefs : (s.respelled r).groupBy.getD [] = (s.groupBy.getD []).map (·.respelled r) := by
    rw [Select.respelled]
    cases s.groupBy <;> rfl
  rw [projectGroups, projectGroups, hrefs, partition_respelled,
    mapM_congr fun group _ => projectGroup_respelled r s items group]

/-- The result rows are the same in both spellings. -/
theorem outputRows_respelled (s : Select) (items : List ListItem) (rows : List Row) :
    outputRows (s.respelled r) (items.map (ListItem.respelled r)) rows =
      outputRows s items rows := by
  rw [outputRows, outputRows, isGrouped_respelled, projectGroups_respelled, projectRows_respelled]

theorem sources_respelled (catalog : Catalog) (s : Select) :
    sources catalog (s.respelled r) = (do
      let (base, joined) ← sources catalog s
      return (base, joined.map (Prod.map (·.respelled r) id))) := by
  have hjoined : (s.respelled r).joins.mapM (fun clause => do
      return (clause, ← catalog.get clause.table.name)) = (do
        let joined ← s.joins.mapM fun clause => do
          return (clause, ← catalog.get clause.table.name)
        return joined.map (Prod.map (·.respelled r) id)) := by
    rw [Select.respelled]
    induction s.joins with
    | nil => rfl
    | cons clause rest ih =>
      rw [List.map_cons, List.mapM_cons, List.mapM_cons, ih]
      simp only [JoinClause.respelled, bind_assoc, pure_bind, List.map_cons, Prod.map, id]
  rw [sources, sources, hjoined]
  simp only [Select.respelled, bind_assoc, pure_bind]

theorem joinedRows_respelled (semantics : JoinSemantics) (base : Table)
    (joined : List (JoinClause × Table)) :
    joinedRows semantics base (joined.map (Prod.map (·.respelled r) id)) =
      joinedRows semantics base joined := by
  rw [joinedRows, joinedRows, List.foldl_map]
  simp only [Prod.map, Join.joinRows_respelled, id]

/-- What does not look at the conditions of the joins is the same in both spellings. -/
theorem map_joined_respelled {γ : Type} {f : JoinClause × Table → γ}
    (h : ∀ clause table, f (clause.respelled r, table) = f (clause, table))
    (joined : List (JoinClause × Table)) :
    (joined.map (Prod.map (·.respelled r) id)).map f = joined.map f := by
  rw [List.map_map]
  exact List.map_congr_left fun step _ => h step.1 step.2

/-- A query is answered alike in both spellings. -/
theorem select_respelled {answer : Listing} :
    select semantics catalog (s.respelled r) = .ok answer ↔
      select semantics catalog s = .ok answer := by
  have hitems : (s.respelled r).items = s.items.map (·.respelled r) := rfl
  have hfilter : (s.respelled r).filter = s.filter.map (·.respelled r) := rfl
  have horder : (s.respelled r).orderBy = s.orderBy.map (·.respelled r) := rfl
  rw [select_eq, select_eq, sources_respelled, bind_assoc, bind_eq_ok, bind_eq_ok]
  refine exists_congr fun tables => and_congr_right fun _ => ?_
  obtain ⟨base, joined⟩ := tables
  rw [pure_bind]
  dsimp only
  rw [map_joined_respelled, map_joined_respelled, joinedRows_respelled]
  · refine bind_eq_ok.trans (Iff.trans ?_ bind_eq_ok.symm)
    refine exists_congr fun _ => and_congr (checkColumns_respelled r _ s) ?_
    rw [hitems, mapM_resolveItem_respelled, hfilter, horder]
    simp only [bind_assoc, pure_bind, filterRows_respelled, outputRows_respelled,
      sortRows_respelled]
    rfl
  · exact fun _ _ => rfl
  · exact fun _ _ => rfl

end Query
end SqlEngine
