import RestQuery.Sql.OfPlan

/-!
# How related rows are tied

The conditions that tie related rows to their parents are at most two: a column holds one of the
parent keys, and a column holds the type of the parent. If the key is in a second table, it is
projected under a name of its own.
-/

namespace RestQuery

open Sql

namespace Relation

def keyColumn? (relation : Relation) (table : String) : Option ColumnRef :=
  match relation.kind with
  | .hasOne => some (.resolve table relation.foreignKey)
  | .hasMany => some (.resolve table relation.foreignKey)
  | .morphMany => some (.resolve table relation.foreignKey)
  | .belongsTo => some (.resolve table relation.localKey)
  | .morphTo => some (.resolve table relation.localKey)
  | .hasManyThrough => relation.through.map fun through => .resolve through.table through.firstKey
  | _ => relation.pivot.map fun pivot => .resolve pivot.table pivot.parentKey

/-- The column that has to hold the type of the parent, and this type. -/
def typeTest? (relation : Relation) (table : String) : Option (ColumnRef × String) :=
  match relation.kind with
  | .hasOne => none
  | .hasMany => none
  | .belongsTo => none
  | .morphTo => none
  | .hasManyThrough => none
  | .morphMany =>
    match relation.typeColumn, relation.typeValue with
    | some column, some value => some (.resolve table column, value)
    | _, _ => none
  | _ => relation.pivot.bind fun pivot => pivot.morph.map fun (column, value) =>
      (.resolve pivot.table column, value)

/-- The comparisons that tie the rows of `table` to their parents. -/
def keyLeaves (relation : Relation) (table : String) (keys : List Value) : List Leaf :=
  match relation.keyColumn? table with
  | some key =>
    .isIn key keys false ::
      ((relation.typeTest? table).map fun (column, value) =>
        .compare column .eq (.text value)).toList
  | none => []

def outline (relation : Relation) : Relation :=
  { relation with
    typeValue := relation.typeValue.map fun _ => ""
    pivot := relation.pivot.map fun pivot =>
      { pivot with morph := pivot.morph.map fun (column, _) => (column, "") } }

end Relation

namespace Sql

def tieBy (join : Option Join) (key : ColumnRef) (typeTest : Option (ColumnRef × String))
    (keys : List Value) : Tie :=
  ⟨join.map fun _ => .labelled key Relation.pivotAlias, join,
    isOneOf key keys :: (typeTest.map fun (column, value) => equalsText column value).toList⟩

/-- A relation without the table of its key ties nothing. Of any other, the outline has the same tie
but for the type. -/
theorem tieOf_cases (relation : Relation) (related : Entity) :
    (relation.keyColumn? related.table = none ∧
      ∀ keys, tieOf relation related keys = .none ∧ tieOf relation.outline related keys = .none) ∨
    ∃ join key, relation.keyColumn? related.table = some key ∧ ∀ keys,
      tieOf relation related keys = tieBy join key (relation.typeTest? related.table) keys ∧
      tieOf relation.outline related keys =
        tieBy join key ((relation.typeTest? related.table).map fun (column, _) => (column, ""))
          keys := by
  obtain ⟨kind, target, foreignKey, localKey, typeColumn, typeValue, pivot, through⟩ := relation
  cases kind with
  | hasManyThrough =>
    cases through with
    | none => exact .inl ⟨rfl, fun _ => ⟨rfl, rfl⟩⟩
    | some through => exact .inr ⟨some _, _, rfl, fun _ => ⟨rfl, rfl⟩⟩
  | morphMany =>
    cases typeColumn <;> cases typeValue <;> exact .inr ⟨none, _, rfl, fun _ => ⟨rfl, rfl⟩⟩
  | belongsToMany | morphToMany | morphedByMany =>
    cases pivot with
    | none => exact .inl ⟨rfl, fun _ => ⟨rfl, rfl⟩⟩
    | some pivot =>
      obtain ⟨table, parentKey, relatedKey, morph⟩ := pivot
      cases morph <;> exact .inr ⟨some _, _, rfl, fun _ => ⟨rfl, rfl⟩⟩
  | _ => exact .inr ⟨none, _, rfl, fun _ => ⟨rfl, rfl⟩⟩

theorem tieOf_conditions (relation : Relation) (related : Entity) (keys : List Value) :
    (tieOf relation related keys).conditions =
      (relation.keyLeaves related.table keys).map .leaf := by
  unfold Relation.keyLeaves
  obtain ⟨hkey, htie⟩ | ⟨join, key, hkey, htie⟩ := tieOf_cases relation related
  · rw [hkey, (htie keys).1]
    rfl
  · rw [hkey, (htie keys).1]
    cases relation.typeTest? related.table <;> rfl

theorem labelled_of_mem_keyItem {relation : Relation} {related : Entity} {keys : List Value}
    {item : Item} (h : item ∈ (tieOf relation related keys).keyItem) :
    ∃ ref label, item = .labelled ref label := by
  obtain ⟨-, htie⟩ | ⟨join, key, -, htie⟩ := tieOf_cases relation related
  · rw [(htie keys).1] at h
    cases h
  · rw [(htie keys).1] at h
    obtain ⟨_, -, rfl⟩ := Option.map_eq_some_iff.mp h
    exact ⟨key, _, rfl⟩

end Sql

end RestQuery
