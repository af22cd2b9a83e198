import RestQuery.Proofs.Expansion.Items
import RestQuery.Proofs.Load.Groups
import RestQuery.Proofs.Load.Shape

/-!
# The column of the parent by which a relation is joined

An expansion requires this column on the level of the parent, a load collects from it the keys that
it asks for, and related rows are attached where their key is its value. All three take it from
`Relation.parentJoinColumn`, so they agree. A local key that is set on a relation is this column
only where it has neither a type nor a pivot: the other relations are joined by the primary key of
the parent, whatever their local key.
-/

namespace RestQuery

open Sql Stitch Load LoadStep ExpandClause Text

namespace RelationKind

def takesLocalKey : RelationKind → Bool
  | belongsTo => false
  | morphTo => false
  | _ => true

def joinsLocalKey : RelationKind → Bool
  | hasOne => true
  | hasMany => true
  | hasManyThrough => true
  | _ => false

end RelationKind

theorem Relation.parentJoinColumn_withLocalKey {relation : Relation}
    (htakes : relation.kind.takesLocalKey = true) (localKey primaryKey : String) :
    (relation.withLocalKey localKey).parentJoinColumn primaryKey =
      if relation.kind.joinsLocalKey then localKey else primaryKey := by
  unfold Relation.parentJoinColumn Relation.withLocalKey
  cases hkind : relation.kind <;> simp_all [RelationKind.takesLocalKey, RelationKind.joinsLocalKey]

namespace Load

variable {parent : Entity} {relation : Relation} {column name : String}

/-- A relation ties the rows of `parent` to related rows by the values of a column. -/
structure JoinedBy (parent : Entity) (relation : Relation) (column : String) : Prop where
  required : ∀ {ctx : Context} {ps : Parameters} {clause : ExpandClause} {above : List String}
    {name : String}, ExpandClause.read ctx ps .empty = .accept clause →
    ExpandClause.Through (items ctx ps) (above ++ [name]) →
    RelationAt ctx.schema.expandsTo ctx.entity above name parent relation →
      parent.qualified column ∈ (clause.expansion.entry (levelPath above)).required
  loaded : ∀ {db : Database} {schema : Schema} {loads : Dict EagerLoad} {depth : Nat}
    {above path name parentColumn : String} {pending : List String} {target : Entity}
    {load : EagerLoad} {steps : List LoadStep} {rows out : List Row}
    {sent sent' : List Statement},
    .related path name parentColumn relation target load steps ∈
      build schema loads depth parent above pending →
    Yields (runStep db schema (.related path name parentColumn relation target load steps) rows)
      sent out sent' →
    ∃ children middle finished,
      Fetched db relation target load (distinctKeys column rows) sent children middle ∧
      Yields (level target (runSteps db schema steps) children) middle finished sent' ∧
      List.Forall₂
        (Receives finished name column relation.relatedJoinColumn relation.kind.isToMany) rows out

theorem joinedBy_parentJoinColumn (parent : Entity) (relation : Relation) :
    JoinedBy parent relation (relation.parentJoinColumn parent.primaryKey) where
  required hread hthrough hat := by
    obtain ⟨haccepted, hmarks⟩ := gather_take_eq_accept_iff.mp (read_eq_accept_iff.mp hread)
    rw [hmarks, haccepted.mem_required_iff]
    exact .inl ⟨_, _, parent, relation, hthrough, rfl, hat,
      List.mem_map_of_mem List.mem_cons_self⟩
  loaded hmem hyields := by
    obtain ⟨rfl, -⟩ := related_of_mem_build hmem
    obtain ⟨children, middle, finished, hfetched, hlevel, rfl⟩ := runStep_related hyields
    refine ⟨children, middle, finished, hfetched, hlevel, ?_⟩
    rw [attach_eq, List.forall₂_map_right_iff]
    exact List.forall₂_same.mpr fun row _ => receives_insert_shown ..

theorem exists_related_mem_build (hname : Undotted name)
    (hdeclared : parent.relation? name = some relation) (hkind : relation.kind ≠ .morphTo) :
    ∃ (schema : Schema) (path parentColumn : String) (target : Entity) (load : EagerLoad)
      (steps : List LoadStep), .related path name parentColumn relation target load steps ∈
        build schema [] defaultDepth parent "" [name] := by
  let schema : Schema := ⟨[(relation.related.getD "", parent)], []⟩
  have htarget : schema.loadsTo parent relation = some parent := by
    rw [Schema.loadsTo, if_neg hkind, Schema.entity?, Dict.get?, if_pos rfl]
  have hheads : name ∈ heads (pathsAt defaultDepth parent [name]) := by
    refine mem_heads.mpr ⟨name, by simp [pathsAt], ?_⟩
    rw [headOf, cutFirst_of_undotted hname]
  obtain ⟨step, hmem, hloads⟩ := exists_mem_build hheads hdeclared htarget
  cases hloads with
  | owner hmorph => exact absurd hmorph hkind
  | related => exact ⟨schema, _, _, _, _, _, hmem⟩

/-- No other column ties the rows: of a row that has a value there alone nothing would be asked
for. -/
theorem JoinedBy.eq_parentJoinColumn (h : JoinedBy parent relation column) (hname : Undotted name)
    (hdeclared : parent.relation? name = some relation) (hkind : relation.kind ≠ .morphTo) :
    column = relation.parentJoinColumn parent.primaryKey := by
  by_contra hne
  obtain ⟨schema, path, parentColumn, target, load, steps, hmem⟩ :=
    exists_related_mem_build hname hdeclared hkind
  obtain ⟨hcolumn, -⟩ := related_of_mem_build hmem
  let rows : List Row := [[(column, .text "")]]
  let db : Database := fun _ => .rows []
  have hkeyless : distinctKeys parentColumn rows = [] := by
    refine distinctKeys_eq_nil_iff.mpr fun row hrow => ?_
    rw [List.mem_singleton.mp hrow, keyAt, Dict.get?, if_neg (hcolumn ▸ hne)]
    rfl
  have hkeyed : distinctKeys column rows ≠ [] := by
    intro hnil
    have hnone := distinctKeys_eq_nil_iff.mp hnil _ (List.mem_singleton_self _)
    rw [keyAt, Dict.get?, if_pos rfl] at hnone
    cases hnone
  have hyields : Yields (runStep db schema (.related path name parentColumn relation target load
      steps) rows) [] (attach rows [] name parentColumn Relation.pivotAlias
        relation.kind.isToMany) [] := by
    rw [runStep, hkeyless]
    exact yields_pure.mpr ⟨rfl, rfl⟩
  obtain ⟨children, middle, finished, hfetched, hlevel, -⟩ := h.loaded hmem hyields
  have hsends : SendsOnly (AskedWithin schema steps) (level target (runSteps db schema steps)
      children) := sendsOnly_level (sendsOnly_runSteps steps) target children
  have hsent := prefix_of_yields hsends hlevel
  rw [Fetched, if_neg hkeyed, List.prefix_nil.mp hsent] at hfetched
  simp at hfetched

/-- A relation whose local key is set is joined by it if it has neither a type nor a pivot, and by
the primary key of the parent otherwise, where the setting then counts only if it names this key. -/
theorem joinedBy_localKey_iff (htakes : relation.kind.takesLocalKey = true) (localKey : String) :
    JoinedBy parent (relation.withLocalKey localKey)
        (if relation.kind.joinsLocalKey then localKey else parent.primaryKey) ∧
      ∀ name, Undotted name → parent.relation? name = some (relation.withLocalKey localKey) →
        (JoinedBy parent (relation.withLocalKey localKey) localKey ↔
          relation.kind.joinsLocalKey = true ∨ localKey = parent.primaryKey) := by
  have hjoined := joinedBy_parentJoinColumn parent (relation.withLocalKey localKey)
  rw [Relation.parentJoinColumn_withLocalKey htakes] at hjoined
  refine ⟨hjoined, fun name hname hdeclared => ⟨fun h => ?_, fun h => ?_⟩⟩
  · have hkind : (relation.withLocalKey localKey).kind ≠ .morphTo := by
      intro hmorph
      change relation.kind = .morphTo at hmorph
      rw [hmorph] at htakes
      cases htakes
    have heq := h.eq_parentJoinColumn hname hdeclared hkind
    rw [Relation.parentJoinColumn_withLocalKey htakes] at heq
    by_cases hjoins : relation.kind.joinsLocalKey = true
    · exact .inl hjoins
    · rw [if_neg hjoins] at heq
      exact .inr heq
  · rcases h with hjoins | rfl
    · rwa [if_pos hjoins] at hjoined
    · rwa [ite_self] at hjoined

/-! ### Members that are known by another column -/

def knownEntity : Entity :=
  ((Entity.ofTable "members" "members").addRelation "posts"
    ((Relation.hasMany "posts" "member_id" "id").withLocalKey "uuid")).addRelation "groups"
      (groupRelation.withLocalKey "uuid")

def knownSchema : Schema :=
  (Schema.empty.add knownEntity).add (Entity.ofTable "groups" "groups")

theorem joinedBy_localKey_iff_of_known :
    (Relation.hasMany "posts" "member_id" "id").kind.takesLocalKey = true ∧
      JoinedBy knownEntity ((Relation.hasMany "posts" "member_id" "id").withLocalKey "uuid")
        "uuid" ∧
      groupRelation.kind.takesLocalKey = true ∧
      ¬ JoinedBy knownEntity (groupRelation.withLocalKey "uuid") "uuid" := by
  refine ⟨rfl, (joinedBy_localKey_iff rfl "uuid").1, rfl, fun h => ?_⟩
  have hcases := ((joinedBy_localKey_iff rfl "uuid").2 "groups" (by decide) rfl).mp h
  exact absurd hcases (by decide)

/-- The groups of a member are to be tied by `uuid`, but the expansion requires the identifier, the
statement asks for it, and a group whose pivot key is the `uuid` of the member is not attached. -/
theorem local_key_of_groups_ignored :
    ∃ clause member statement,
      ExpandClause.read ⟨Settings.default, .permissive, knownSchema, knownEntity, .default⟩
        (.ofPairs [("expand", "groups")]) .empty = .accept clause ∧
      (clause.expansion.entry rootPath).required = ["members.id"] ∧
      Yields (Load.run (.replaying [.rows [[("__pivot", .text "a"), ("id", .ofNat 7)]]])
          knownSchema [("groups", .empty)] knownEntity
          [[("id", .ofNat 1), ("uuid", .text "a")]])
        [] [member] [statement] ∧
      statement = .ofRelation (groupRelation.withLocalKey "uuid") (Entity.ofTable "groups" "groups")
        .empty [.int 1] ∧
      member.get? "groups" = some (.array []) := by
  refine ⟨⟨⟨[(".", ⟨["members.id"], []⟩), ("groups", .empty)]⟩⟩,
    [("groups", .array []), ("id", .ofNat 1), ("uuid", .text "a")], _, ?_, rfl, ?_, rfl, rfl⟩
  · rw [read_eq_accept_iff]
    cbv
  · unfold Yields
    cbv

end Load

end RestQuery
