import Mathlib.Data.List.Induction
import RestQuery.Clause.Expand
import RestQuery.Proofs.Text.Dotted
import RestQuery.Sql.OfPlan

/-!
# Levels of a schema

The rows of a request lie on levels: the root rows on the first one, and below it the related rows
of each relation. A level is given by the segments of its relation path. `pathTo` writes the path,
`entityAt` follows it from entity to entity. Written paths and lists of segments determine each
other, except that the root level has a path of its own, which is also the written path of two empty
segments.

Relations are declared by a few constructors. These fill all that a kind needs: a target for every
kind but the polymorphic one, and the second table for the kinds that are tied by one. With other
relations, expanding a path and loading it need not lead to the same entities.
-/

namespace RestQuery

open Text ExpandClause

/-! ### Declared relations -/

/-- The relations that can be declared. -/
inductive Relation.Built : Relation → Prop
  | hasOne (related foreignKey localKey : String) : Built (.hasOne related foreignKey localKey)
  | hasMany (related foreignKey localKey : String) : Built (.hasMany related foreignKey localKey)
  | belongsTo (related foreignKey ownerKey : String) :
      Built (.belongsTo related foreignKey ownerKey)
  | belongsToMany (related table parentKey relatedKey : String) :
      Built (.belongsToMany related table parentKey relatedKey)
  | hasManyThrough (related table firstKey foreignKey localKey secondLocalKey : String) :
      Built (.hasManyThrough related table firstKey foreignKey localKey secondLocalKey)
  | morphMany (related morphId typeColumn typeValue : String) :
      Built (.morphMany related morphId typeColumn typeValue)
  | morphTo (morphId typeColumn ownerKey : String) : Built (.morphTo morphId typeColumn ownerKey)
  | morphToMany (related table parentKey relatedKey typeColumn typeValue : String) :
      Built (.morphToMany related table parentKey relatedKey typeColumn typeValue)
  | morphedByMany (related table parentKey relatedKey typeColumn typeValue : String) :
      Built (.morphedByMany related table parentKey relatedKey typeColumn typeValue)
  | withLocalKey {relation : Relation} (localKey : String) :
      Built relation → Built (relation.withLocalKey localKey)

/-- Whether related rows are tied to their parents by a column of a second table. -/
def RelationKind.usesSecondTable : RelationKind → Bool
  | belongsToMany => true
  | hasManyThrough => true
  | morphToMany => true
  | morphedByMany => true
  | _ => false

namespace Relation.Built

variable {relation : Relation}

theorem related_eq_none_iff (h : relation.Built) :
    relation.related = none ↔ relation.kind = .morphTo := by
  induction h with
  | withLocalKey _ _ ih => exact ih
  | _ => simp [Relation.hasOne, Relation.hasMany, Relation.belongsTo, Relation.belongsToMany,
      Relation.hasManyThrough, Relation.morphMany, Relation.morphTo, Relation.morphToMany,
      Relation.morphedByMany, withPivot, direct]

theorem exists_typeColumn (h : relation.Built) (hk : relation.kind = .morphTo) :
    ∃ typeColumn, relation.typeColumn = some typeColumn := by
  induction h with
  | withLocalKey _ _ ih => exact ih hk
  | morphTo _ typeColumn _ => exact ⟨typeColumn, rfl⟩
  | _ => cases hk

theorem exists_through (h : relation.Built) (hk : relation.kind = .hasManyThrough) :
    ∃ through, relation.through = some through := by
  induction h with
  | withLocalKey _ _ ih => exact ih hk
  | hasManyThrough => exact ⟨_, rfl⟩
  | _ => cases hk

theorem exists_pivot (h : relation.Built) (hs : relation.kind.usesSecondTable = true)
    (hk : relation.kind ≠ .hasManyThrough) : ∃ pivot, relation.pivot = some pivot := by
  induction h with
  | withLocalKey _ _ ih => exact ih hs hk
  | belongsToMany => exact ⟨_, rfl⟩
  | hasManyThrough => exact absurd rfl hk
  | morphToMany => exact ⟨_, rfl⟩
  | morphedByMany => exact ⟨_, rfl⟩
  | _ => cases hs

/-- The key of a second table is always projected. -/
theorem exists_keyItem (h : relation.Built) (hs : relation.kind.usesSecondTable = true)
    (target : Entity) (keys : List Sql.Value) :
    ∃ ref, (Sql.tieOf relation target keys).keyItem = some (.labelled ref pivotAlias) := by
  by_cases hk : relation.kind = .hasManyThrough
  · obtain ⟨through, hthrough⟩ := h.exists_through hk
    refine ⟨.resolve through.table through.firstKey, ?_⟩
    simp only [Sql.tieOf, hk, hthrough, Sql.tieThrough]
  · obtain ⟨pivot, hpivot⟩ := h.exists_pivot hs hk
    refine ⟨.resolve pivot.table pivot.parentKey, ?_⟩
    cases hkind : relation.kind with
    | hasManyThrough => exact absurd hkind hk
    | belongsToMany => simp only [Sql.tieOf, hkind, hpivot, Sql.tieThrough]
    | morphToMany => simp only [Sql.tieOf, hkind, hpivot, Sql.tieThrough]
    | morphedByMany => simp only [Sql.tieOf, hkind, hpivot, Sql.tieThrough]
    | _ => simp [hkind, RelationKind.usesSecondTable] at hs

end Relation.Built

def Entity.Built (entity : Entity) : Prop :=
  ∀ ⦃name relation⦄, entity.relation? name = some relation → relation.Built

theorem Entity.built_ofTable (name table : String) : (ofTable name table).Built := by
  intro _ _ h
  cases h

theorem Entity.Built.addRelation {entity : Entity} (h : entity.Built) (name : String)
    {relation : Relation} (hr : relation.Built) : (entity.addRelation name relation).Built := by
  intro other relation' hother
  by_cases hname : other = name
  · subst hname
    obtain rfl : relation = relation' := by
      simpa [Entity.relation?, Entity.addRelation] using hother
    exact hr
  · have hdeclared : entity.relation? other = some relation' := by
      simpa [Entity.relation?, Entity.addRelation, hname] using hother
    exact h hdeclared

namespace Schema

/-- All relations of the registered entities are declared by the constructors. -/
def Built (schema : Schema) : Prop :=
  ∀ ⦃name entity⦄, schema.entity? name = some entity → entity.Built

def UndottedTables (schema : Schema) : Prop :=
  ∀ ⦃name entity⦄, schema.entity? name = some entity → Undotted entity.table

theorem eq_or_entity?_of_add {schema : Schema} {added entity : Entity} {name : String}
    (h : (schema.add added).entity? name = some entity) :
    entity = added ∨ schema.entity? name = some entity := by
  by_cases hname : name = added.name
  · subst hname
    exact Or.inl (by simpa [add, entity?, eq_comm] using h)
  · exact Or.inr (by simpa [add, entity?, hname] using h)

theorem built_empty : empty.Built := by
  intro _ _ h
  cases h

theorem Built.add {schema : Schema} (h : schema.Built) {entity : Entity} (he : entity.Built) :
    (schema.add entity).Built := by
  intro name other hother
  rcases eq_or_entity?_of_add hother with rfl | hother
  · exact he
  · exact h hother

theorem undottedTables_empty : empty.UndottedTables := by
  intro _ _ h
  cases h

theorem UndottedTables.add {schema : Schema} (h : schema.UndottedTables) {entity : Entity}
    (he : Undotted entity.table) : (schema.add entity).UndottedTables := by
  intro name other hother
  rcases eq_or_entity?_of_add hother with rfl | hother
  · exact he
  · exact h hother

/-- The entity at which an expanded path goes on behind a relation. A polymorphic relation ends the
path; one that names no entity stays where it is. -/
def expandsTo (schema : Schema) (parent : Entity) (relation : Relation) : Option Entity :=
  if relation.kind = .morphTo then none
  else
    match relation.related with
    | some name => schema.entity? name
    | none => some parent

/-- The entity of the rows that are loaded for a relation. -/
def loadsTo (schema : Schema) (_parent : Entity) (relation : Relation) : Option Entity :=
  if relation.kind = .morphTo then none else schema.entity? (relation.related.getD "")

end Schema

/-! ### Levels -/

/-- The entity that is reached by following relations. -/
def entityAt (next : Entity → Relation → Option Entity) (entity : Entity) :
    List String → Option Entity
  | [] => some entity
  | segment :: rest =>
    match (entity.relation? segment).bind (next entity) with
    | some target => entityAt next target rest
    | none => none

structure RelationAt (next : Entity → Relation → Option Entity) (root : Entity)
    (above : List String) (name : String) (parent : Entity) (relation : Relation) : Prop where
  level : entityAt next root above = some parent
  declared : parent.relation? name = some relation

section Levels

variable {next : Entity → Relation → Option Entity}

theorem RelationAt.unique {root parent parent' : Entity} {above : List String} {name : String}
    {relation relation' : Relation} (h : RelationAt next root above name parent relation)
    (h' : RelationAt next root above name parent' relation') :
    parent = parent' ∧ relation = relation' := by
  obtain rfl : parent = parent' := Option.some.inj (h.level.symm.trans h'.level)
  exact ⟨rfl, Option.some.inj (h.declared.symm.trans h'.declared)⟩

theorem RelationAt.eq_root {root parent : Entity} {above : List String} {name : String}
    {relation : Relation} (hat : RelationAt next root above name parent relation)
    (h : above = []) : parent = root := by
  subst h
  simpa [entityAt, eq_comm] using hat.level

theorem entityAt_cons_of_next {parent target : Entity} {segment : String} {relation : Relation}
    (h : parent.relation? segment = some relation) (ht : next parent relation = some target)
    (rest : List String) : entityAt next parent (segment :: rest) = entityAt next target rest := by
  rw [entityAt, h, Option.bind_some, ht]

theorem relationAt_cons_iff {root target : Entity} {segment : String} {relation : Relation}
    (h : root.relation? segment = some relation) (ht : next root relation = some target)
    {above : List String} {name : String} {parent : Entity} {last : Relation} :
    RelationAt next root (segment :: above) name parent last ↔
      RelationAt next target above name parent last := by
  constructor
  · intro hat
    exact ⟨(entityAt_cons_of_next h ht above).symm.trans hat.level, hat.declared⟩
  · intro hat
    exact ⟨(entityAt_cons_of_next h ht above).trans hat.level, hat.declared⟩

/-- The rows below a relation are those of the entity to which it leads. -/
theorem entityAt_concat {root target : Entity} {above : List String} {name : String} :
    entityAt next root (above ++ [name]) = some target ↔
      ∃ parent relation, RelationAt next root above name parent relation ∧
        next parent relation = some target := by
  induction above generalizing root with
  | nil =>
    rw [List.nil_append, entityAt]
    constructor
    · intro h
      split at h
      · next reached hreached =>
        obtain ⟨relation, hrel, hnext⟩ := Option.bind_eq_some_iff.mp hreached
        exact ⟨root, relation, ⟨rfl, hrel⟩, hnext.trans h⟩
      · cases h
    · rintro ⟨parent, relation, hat, hnext⟩
      obtain rfl := hat.eq_root rfl
      rw [hat.declared, Option.bind_some, hnext]
      rfl
  | cons segment above ih =>
    rw [List.cons_append, entityAt]
    cases hreached : (root.relation? segment).bind (next root) with
    | none =>
      have hnot : ∀ parent relation,
          ¬ RelationAt next root (segment :: above) name parent relation := by
        intro parent relation hat
        have hlevel := hat.level
        rw [entityAt, hreached] at hlevel
        cases hlevel
      simp [hnot]
    | some reached =>
      obtain ⟨relation, hrel, hnext⟩ := Option.bind_eq_some_iff.mp hreached
      simp only [ih, relationAt_cons_iff hrel hnext]

end Levels

namespace Schema

variable {schema : Schema}

theorem exists_name_of_loadsTo {parent target : Entity} {relation : Relation}
    (h : schema.loadsTo parent relation = some target) :
    ∃ name, schema.entity? name = some target := by
  unfold loadsTo at h
  split at h
  · cases h
  · exact ⟨_, h⟩

/-- Below a registered entity there are registered entities only. -/
theorem exists_name_of_entityAt {entity target : Entity} {segments : List String}
    (hroot : ∃ name, schema.entity? name = some entity)
    (h : entityAt schema.loadsTo entity segments = some target) :
    ∃ name, schema.entity? name = some target := by
  induction segments generalizing entity with
  | nil =>
    obtain rfl : entity = target := by simpa [entityAt] using h
    exact hroot
  | cons segment rest ih =>
    rw [entityAt] at h
    split at h
    · next next hnext =>
      obtain ⟨relation, -, hloads⟩ := Option.bind_eq_some_iff.mp hnext
      exact ih (exists_name_of_loadsTo hloads) h
    · cases h

theorem Built.exists_related (hb : schema.Built) {parent : Entity} {name : String}
    {relation : Relation} (hparent : ∃ name, schema.entity? name = some parent)
    (hrel : parent.relation? name = some relation) (hkind : relation.kind ≠ .morphTo) :
    ∃ related, relation.related = some related := by
  obtain ⟨entityName, hentity⟩ := hparent
  exact Option.ne_none_iff_exists'.mp (mt (hb hentity hrel).related_eq_none_iff.mp hkind)

theorem Built.expandsTo_eq (hb : schema.Built) {parent : Entity} {name : String}
    {relation : Relation} (hparent : ∃ name, schema.entity? name = some parent)
    (hrel : parent.relation? name = some relation) :
    schema.expandsTo parent relation = schema.loadsTo parent relation := by
  unfold expandsTo loadsTo
  split
  · rfl
  · next hkind =>
    obtain ⟨related, hrelated⟩ := hb.exists_related hparent hrel hkind
    simp [hrelated]

theorem expandsTo_eq_bind {relation : Relation} (hr : relation.Built) (parent : Entity) :
    schema.expandsTo parent relation = relation.related.bind schema.entity? := by
  unfold expandsTo
  split
  · next hkind => rw [hr.related_eq_none_iff.mpr hkind, Option.bind_none]
  · next hkind =>
    obtain ⟨related, hrelated⟩ := Option.ne_none_iff_exists'.mp (mt hr.related_eq_none_iff.mp hkind)
    rw [hrelated, Option.bind_some]

/-- Below an entity whose relations are declared by the constructors there are only such. -/
theorem Built.built_of_entityAt (hb : schema.Built) {root entity : Entity} (hroot : root.Built)
    {segments : List String} (h : entityAt schema.expandsTo root segments = some entity) :
    entity.Built := by
  induction segments generalizing root with
  | nil =>
    obtain rfl : root = entity := by simpa [entityAt] using h
    exact hroot
  | cons segment rest ih =>
    rw [entityAt] at h
    split at h
    · next target htarget =>
      obtain ⟨relation, hrel, hnext⟩ := Option.bind_eq_some_iff.mp htarget
      rw [expandsTo_eq_bind (hroot hrel)] at hnext
      obtain ⟨name, -, hname⟩ := Option.bind_eq_some_iff.mp hnext
      exact ih (hb hname) h
    · cases h

/-- With declared relations, a path expands the rows that it loads. -/
theorem Built.entityAt_eq (hb : schema.Built) {entity : Entity}
    (hentity : ∃ name, schema.entity? name = some entity) (segments : List String) :
    entityAt schema.expandsTo entity segments = entityAt schema.loadsTo entity segments := by
  induction segments generalizing entity with
  | nil => rfl
  | cons segment rest ih =>
    rw [entityAt, entityAt]
    cases hrel : entity.relation? segment with
    | none => rfl
    | some relation =>
      rw [Option.bind_some, Option.bind_some, hb.expandsTo_eq hentity hrel]
      cases hloads : schema.loadsTo entity relation with
      | none => rfl
      | some target => exact ih (exists_name_of_loadsTo hloads)

theorem Built.relationAt_iff (hb : schema.Built) {root : Entity}
    (hroot : ∃ name, schema.entity? name = some root) {above : List String} {name : String}
    {parent : Entity} {relation : Relation} :
    RelationAt schema.expandsTo root above name parent relation ↔
      RelationAt schema.loadsTo root above name parent relation := by
  constructor
  · intro hat
    exact ⟨(hb.entityAt_eq hroot above).symm.trans hat.level, hat.declared⟩
  · intro hat
    exact ⟨(hb.entityAt_eq hroot above).trans hat.level, hat.declared⟩

end Schema

/-! ### Written paths -/

/-- The path of some segments; the root level has none. -/
def pathTo (segments : List String) : Option String :=
  segments.foldl (fun above segment => some (pathBelow above segment)) none

/-- The path under which the columns of a level are recorded. -/
def levelPath (segments : List String) : String := (pathTo segments).getD rootPath

@[simp] theorem pathTo_concat (segments : List String) (segment : String) :
    pathTo (segments ++ [segment]) = some (pathBelow (pathTo segments) segment) := by
  simp [pathTo]

@[simp]
theorem pathTo_eq_none_iff {segments : List String} : pathTo segments = none ↔ segments = [] := by
  cases segments using List.reverseRecOn with
  | nil => simp [pathTo]
  | append_singleton above last => simp

theorem pieces_pathBelow_none {segment : String} (h : Undotted segment) :
    pieces '.' (pathBelow none segment) = [segment] := pieces_of_undotted h

theorem pieces_pathBelow_some (above : String) {segment : String} (h : Undotted segment) :
    pieces '.' (pathBelow (some above) segment) = pieces '.' above ++ [segment] := by
  rw [pathBelow, pieces_dotted, pieces_of_undotted h]

theorem pieces_of_pathTo {segments : List String} (h : ∀ s ∈ segments, Undotted s) {path : String}
    (hp : pathTo segments = some path) : pieces '.' path = segments := by
  induction segments using List.reverseRecOn generalizing path with
  | nil => cases hp
  | append_singleton above segment ih =>
    have hs : Undotted segment := h segment (by simp)
    rw [pathTo_concat, Option.some.injEq] at hp
    subst hp
    cases ha : pathTo above with
    | none =>
      obtain rfl := pathTo_eq_none_iff.mp ha
      exact pieces_pathBelow_none hs
    | some path =>
      rw [pieces_pathBelow_some path hs, ih (fun s hs' => h s (by simp [hs'])) ha]

theorem pathTo_pieces (path : String) : pathTo (pieces '.' path) = some path := by
  induction hn : path.length using Nat.strongRecOn generalizing path with
  | ind n ih =>
    cases hcut : cutLast '.' path with
    | none =>
      rw [pieces_of_undotted (undotted_of_cutLast_eq_none hcut)]
      rfl
    | some cut =>
      obtain ⟨above, segment⟩ := cut
      obtain ⟨rfl, hsegment⟩ := eq_dotted_of_cutLast hcut
      have hlt : above.length < n := by
        rw [← hn, String.length_append, String.length_append]
        have hdot : ".".length = 1 := rfl
        omega
      rw [pieces_dotted, pieces_of_undotted hsegment, pathTo_concat, ih _ hlt above rfl]
      rfl

end RestQuery
