/-!
# Relations between entities

A relation is declared with the columns that tie the rows of two tables together. The meaning of its
two key columns depends on its kind:

* has one, has many: `foreignKey` is a column of the related table, `localKey` one of the parent;
* belongs to: `foreignKey` is a column of the parent, `localKey` one of the related table;
* has many through: `foreignKey` is a column of the related table that refers to the table between;
* morph many: `foreignKey` and `typeColumn` of the related table identify the parent;
* morph to: `foreignKey` and `typeColumn` of the parent identify the owner by its `localKey`;
* the kinds with a pivot table are tied by its columns.
-/

namespace RestQuery

inductive RelationKind where
  | hasOne
  | hasMany
  | belongsTo
  | belongsToMany
  | hasManyThrough
  | morphMany
  | morphTo
  | morphToMany
  | morphedByMany
deriving DecidableEq, Repr

namespace RelationKind

def isToMany : RelationKind → Bool
  | hasOne => false
  | belongsTo => false
  | morphTo => false
  | _ => true

/-- Whether a request may not name columns of the related rows. -/
def rejectsColumns : RelationKind → Bool
  | morphMany => true
  | morphTo => true
  | morphToMany => true
  | _ => false

end RelationKind

structure Pivot where
  table : String
  parentKey : String
  relatedKey : String
  /-- A type column and the value that it must have. -/
  morph : Option (String × String)
deriving DecidableEq, Repr

structure Through where
  table : String
  /-- The column that refers to the parent. -/
  firstKey : String
  /-- The column to which the related table refers. -/
  secondLocalKey : String
deriving DecidableEq, Repr

structure Relation where
  kind : RelationKind
  /-- The name of the related entity; `none` if it differs from row to row. -/
  related : Option String
  foreignKey : String
  localKey : String
  typeColumn : Option String
  typeValue : Option String
  pivot : Option Pivot
  through : Option Through
deriving DecidableEq, Repr

namespace Relation

def direct (kind : RelationKind) (related foreignKey localKey : String) : Relation :=
  ⟨kind, some related, foreignKey, localKey, none, none, none, none⟩

def hasOne (related foreignKey localKey : String) : Relation :=
  direct .hasOne related foreignKey localKey

def hasMany (related foreignKey localKey : String) : Relation :=
  direct .hasMany related foreignKey localKey

def belongsTo (related foreignKey ownerKey : String) : Relation :=
  direct .belongsTo related foreignKey ownerKey

def withPivot (kind : RelationKind) (related table parentKey relatedKey : String)
    (morph : Option (String × String)) : Relation :=
  { direct kind related relatedKey "id" with
    pivot := some ⟨table, parentKey, relatedKey, morph⟩ }

def belongsToMany (related table parentKey relatedKey : String) : Relation :=
  withPivot .belongsToMany related table parentKey relatedKey none

def morphToMany (related table parentKey relatedKey typeColumn typeValue : String) : Relation :=
  withPivot .morphToMany related table parentKey relatedKey (some (typeColumn, typeValue))

def morphedByMany (related table parentKey relatedKey typeColumn typeValue : String) : Relation :=
  withPivot .morphedByMany related table parentKey relatedKey (some (typeColumn, typeValue))

def hasManyThrough (related table firstKey foreignKey localKey secondLocalKey : String) :
    Relation :=
  { direct .hasManyThrough related foreignKey localKey with
    through := some ⟨table, firstKey, secondLocalKey⟩ }

def morphMany (related morphId typeColumn typeValue : String) : Relation :=
  { direct .morphMany related morphId "id" with
    typeColumn := some typeColumn, typeValue := some typeValue }

def morphTo (morphId typeColumn ownerKey : String) : Relation :=
  ⟨.morphTo, none, morphId, ownerKey, some typeColumn, none, none, none⟩

def withLocalKey (relation : Relation) (localKey : String) : Relation :=
  { relation with localKey := localKey }

/-- The name under which a pivot or through column that holds the parent key is projected. -/
def pivotAlias : String := "__pivot"

def parentJoinColumn (relation : Relation) (parentPrimaryKey : String) : String :=
  match relation.kind with
  | .hasOne => relation.localKey
  | .hasMany => relation.localKey
  | .hasManyThrough => relation.localKey
  | .belongsTo => relation.foreignKey
  | .morphTo => relation.foreignKey
  | _ => parentPrimaryKey

def parentKeys (relation : Relation) (parentPrimaryKey : String) : List String :=
  relation.parentJoinColumn parentPrimaryKey ::
    (if relation.kind = .morphTo then relation.typeColumn.toList else [])

def relatedKeys (relation : Relation) (relatedPrimaryKey : Option String) : List String :=
  match relation.kind with
  | .hasOne => [relation.foreignKey]
  | .hasMany => [relation.foreignKey]
  | .hasManyThrough => [relation.foreignKey]
  | .belongsTo => [relation.localKey]
  | .morphTo => []
  | _ => relatedPrimaryKey.toList

def relatedJoinColumn (relation : Relation) : String :=
  match relation.kind with
  | .hasOne => relation.foreignKey
  | .hasMany => relation.foreignKey
  | .morphMany => relation.foreignKey
  | .belongsTo => relation.localKey
  | .morphTo => relation.localKey
  | _ => pivotAlias

end Relation

end RestQuery
