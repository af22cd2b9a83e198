import RestQuery.Proofs.Load.Join

/-!
# Owners row by row

The owners of a level are loaded type by type. When the owners of some types are in place, each row
of these types has what is joined to it alone, and every other row still has null there. The rows of
one type find in the answer for their keys what they would find in the whole table.
-/

namespace RestQuery

open Stitch

namespace Load

section Owner

theorem bind_get?_owners (column : String) (key : Option String) (rows : List Row) :
    key.bind (owners column rows).get? = (matching column key rows).getLast? := by
  cases key with
  | none => simp [matching, sameKey]
  | some key =>
    rw [Option.bind_some]
    induction rows using List.reverseRecOn with
    | nil => rfl
    | append_singleton rows row ih =>
      unfold owners matching at ih ⊢
      rw [List.foldl_append, List.filter_append, List.filter_cons, List.filter_nil]
      cases hkey : keyAt column row with
      | none => simpa [hkey, sameKey] using ih
      | some other =>
        by_cases hsame : key = other
        · subst hsame
          simp [hkey, sameKey]
        · simpa [hkey, sameKey, hsame] using ih

variable {db : Database} {schema : Schema} {tables : Tables} {relation : Relation}
  {load : EagerLoad} {path name typeColumn : String} {level rows : List Row}

/-- The owner of a row once the owners of some types are in place. -/
def ownerAfter (schema : Schema) (tables : Tables) (path typeColumn : String) (relation : Relation)
    (done : List String) (row : Row) : Option Row :=
  if ∃ typeValue ∈ done, typeValueAt typeColumn row = some typeValue then
    ownerOf schema tables path typeColumn relation row
  else none

def typedAfter (schema : Schema) (tables : Tables) (path name typeColumn : String)
    (relation : Relation) (done : List String) (row : Row) : Typed :=
  ⟨typeValueAt typeColumn row, row.insert name
    ((ownerAfter schema tables path typeColumn relation done row).elim .null .object)⟩

theorem ownerOf_eq {typeValue : String} {target : Entity} {row : Row}
    (htype : typeValueAt typeColumn row = some typeValue)
    (htarget : schema.morph? typeValue = some target) :
    ownerOf schema tables path typeColumn relation row =
      ((matching relation.localKey (keyAt relation.foreignKey row)
        (tables.owners path typeValue)).map target.compute).getLast? := by
  rw [ownerOf, htype, Option.bind_some, htarget, Option.bind_some]

theorem typedAfter_concat_of_ne {typeValue : String} {row : Row}
    (h : typeValueAt typeColumn row ≠ some typeValue) (done : List String) :
    typedAfter schema tables path name typeColumn relation (done ++ [typeValue]) row =
      typedAfter schema tables path name typeColumn relation done row := by
  have hdone : (∃ t ∈ done ++ [typeValue], typeValueAt typeColumn row = some t) ↔
      ∃ t ∈ done, typeValueAt typeColumn row = some t := by
    simp [or_and_right, exists_or, h]
  rw [typedAfter, typedAfter, ownerAfter, ownerAfter, if_congr hdone rfl rfl]

theorem typedAfter_concat_of_eq {typeValue : String} {row : Row}
    (h : typeValueAt typeColumn row = some typeValue) (done : List String) :
    typedAfter schema tables path name typeColumn relation (done ++ [typeValue]) row =
      ⟨some typeValue, row.insert name
        ((ownerOf schema tables path typeColumn relation row).elim .null .object)⟩ := by
  rw [typedAfter, ownerAfter, if_pos ⟨typeValue, by simp, h⟩, h]

theorem ownerAfter_eq_none {row : Row}
    (h : ownerOf schema tables path typeColumn relation row = none) (done : List String) :
    ownerAfter schema tables path typeColumn relation done row = none := by
  rw [ownerAfter, h, ite_self]

theorem attachOwner_insert {idColumn : String} (hname : idColumn ≠ name) (row : Row) (value : Json)
    (byKey : Dict Row) :
    attachOwner byKey name idColumn (row.insert name value) =
      row.insert name (((keyAt idColumn row).bind byKey.get?).elim value .object) := by
  unfold attachOwner
  rw [keyAt_insert_of_ne row value hname]
  cases (keyAt idColumn row).bind byKey.get? with
  | none => rfl
  | some owner => exact Dict.insert_insert_self ..

theorem typedAfter_get?_of_ne {column : String} (h : column ≠ name) (done : List String)
    (row : Row) :
    (typedAfter schema tables path name typeColumn relation done row).row.get? column =
      row.get? column :=
  Dict.get?_insert_of_ne _ _ h

def putOwners (name : String) (relation : Relation) (byKey : Dict Row) (typeValue : String)
    (t : Typed) : Typed :=
  if t.typeValue = some typeValue then
    { t with row := attachOwner byKey name relation.foreignKey t.row }
  else t

theorem putOwners_nil (typeValue : String) (t : Typed) :
    putOwners name relation [] typeValue t = t := by
  unfold putOwners attachOwner
  cases keyAt relation.foreignKey t.row <;> simp [Dict.get?]

/-- Among the owners that are asked for the rows of a type, each of these finds its own. -/
theorem putOwners_typedAfter {typeValue : String} {target : Entity} {row : Row} {named : List Row}
    {done : List String} (hname : relation.foreignKey ≠ name)
    (hcomputed : target.isComputed relation.localKey = false)
    (htarget : schema.morph? typeValue = some target)
    (hnamed : typeValueAt typeColumn row = some typeValue →
      (typedAfter schema tables path name typeColumn relation done row).row ∈ named) :
    putOwners name relation (owners relation.localKey
        ((askedFor relation.foreignKey relation.localKey named
          (tables.owners path typeValue)).map target.compute)) typeValue
        (typedAfter schema tables path name typeColumn relation done row) =
      typedAfter schema tables path name typeColumn relation (done ++ [typeValue]) row := by
  unfold putOwners
  by_cases htype : typeValueAt typeColumn row = some typeValue
  · have hkey : keyAt relation.foreignKey
        (typedAfter schema tables path name typeColumn relation done row).row =
        keyAt relation.foreignKey row := by
      rw [keyAt, typedAfter_get?_of_ne hname, keyAt]
    have hfound : (keyAt relation.foreignKey row).bind (owners relation.localKey
        ((askedFor relation.foreignKey relation.localKey named
          (tables.owners path typeValue)).map target.compute)).get? =
        ownerOf schema tables path typeColumn relation row := by
      rw [bind_get?_owners, matching_map (Entity.get?_compute hcomputed), ← hkey,
        matching_askedFor (hnamed htype), hkey, ownerOf_eq htype htarget]
    rw [typedAfter_concat_of_eq htype, typedAfter, if_pos htype, attachOwner_insert hname, hfound,
      htype]
    cases howner : ownerOf schema tables path typeColumn relation row with
    | none => rw [ownerAfter_eq_none howner]; rfl
    | some owner => rfl
  · rw [typedAfter_concat_of_ne htype, typedAfter, if_neg htype]

/-- A type that names no entity changes nothing. -/
theorem yields_loadOwnersOf_of_unnamed {typeValue : String} {typed typed' : List Typed}
    {start finish : List Sql.Statement} (hnone : schema.morph? typeValue = none) :
    Yields (loadOwnersOf db schema name relation load typed typeValue) start typed' finish ↔
      typed = typed' ∧ start = finish := by
  unfold loadOwnersOf
  rw [hnone]
  exact yields_pure

/-- The owners of a type are those that are returned for the keys of its rows. -/
theorem yields_loadOwnersOf_iff {typeValue : String} {target : Entity} {typed typed' : List Typed}
    {start finish : List Sql.Statement} (htarget : schema.morph? typeValue = some target) :
    Yields (loadOwnersOf db schema name relation load typed typeValue) start typed' finish ↔
      ∃ found, Fetched db relation target load (distinctKeys relation.foreignKey
          ((typed.filter (·.typeValue = some typeValue)).map Typed.row)) start found finish ∧
        typed' = typed.map (putOwners name relation
          (owners relation.localKey (found.map target.compute)) typeValue) := by
  unfold loadOwnersOf Fetched
  rw [htarget]
  dsimp only
  by_cases hkeys : distinctKeys relation.foreignKey
      ((typed.filter (·.typeValue = some typeValue)).map Typed.row) = []
  · have hnil : putOwners name relation (owners relation.localKey ([].map target.compute))
        typeValue = id := funext (putOwners_nil typeValue)
    rw [if_pos (by simp [hkeys]), yields_pure]
    simp only [if_pos hkeys]
    constructor
    · rintro ⟨rfl, rfl⟩
      exact ⟨[], ⟨rfl, rfl⟩, by rw [hnil, List.map_id]⟩
    · rintro ⟨found, ⟨rfl, rfl⟩, rfl⟩
      exact ⟨by rw [hnil, List.map_id], rfl⟩
  · rw [if_neg (by simpa using hkeys)]
    simp only [if_neg hkeys]
    constructor
    · intro h
      obtain ⟨found, middle, hask, h⟩ := yields_bind.mp h
      obtain ⟨rfl, rfl⟩ := yields_pure.mp h
      exact ⟨found, yields_ask.mp hask, rfl⟩
    · rintro ⟨found, hfetched, rfl⟩
      exact yields_bind.mpr ⟨found, _, yields_ask.mpr hfetched, yields_pure.mpr ⟨rfl, rfl⟩⟩

/-- The rows that name a type, as they are when the owners of some types are in place. -/
theorem filter_typedAfter (done : List String) (typeValue : String) :
    (((rows.map (typedAfter schema tables path name typeColumn relation done)).filter
        (·.typeValue = some typeValue)).map Typed.row) =
      (rows.filter (typeValueAt typeColumn · = some typeValue)).map fun row =>
        (typedAfter schema tables path name typeColumn relation done row).row := by
  rw [List.filter_map, List.map_map]
  rfl

theorem yields_loadOwnersOf {typeValue : String}
    (hanswers : ∀ {target}, schema.morph? typeValue = some target →
      AnswersFrom db (.ofRelation relation target load) relation.foreignKey relation.localKey
        (level.filter (typeValueAt typeColumn · = some typeValue)) (tables.owners path typeValue))
    (hname : relation.foreignKey ≠ name)
    (hcomputed : ∀ {target}, schema.morph? typeValue = some target →
      target.isComputed relation.localKey = false)
    (hrows : Drawn (Finds (.owner path name typeColumn relation load)) level rows)
    (done : List String)
    (start : List Sql.Statement) :
    ∃ finish, Yields (loadOwnersOf db schema name relation load
        (rows.map (typedAfter schema tables path name typeColumn relation done)) typeValue) start
      (rows.map (typedAfter schema tables path name typeColumn relation (done ++ [typeValue])))
      finish := by
  cases htarget : schema.morph? typeValue with
  | none =>
    refine ⟨start, (yields_loadOwnersOf_of_unnamed htarget).mpr
      ⟨List.map_congr_left fun row _ => ?_, rfl⟩⟩
    by_cases htype : typeValueAt typeColumn row = some typeValue
    · have howner : ownerOf schema tables path typeColumn relation row = none := by
        rw [ownerOf, htype, Option.bind_some, htarget, Option.bind_none]
      rw [typedAfter_concat_of_eq htype, typedAfter, htype, ownerAfter_eq_none howner, howner]
    · rw [typedAfter_concat_of_ne htype]
  | some target =>
    have hdrawn : Drawn (SameAt relation.foreignKey)
        (level.filter (typeValueAt typeColumn · = some typeValue))
        ((rows.filter (typeValueAt typeColumn · = some typeValue)).map fun row =>
          (typedAfter schema tables path name typeColumn relation done row).row) := by
      have hnamed : Drawn (Finds (.owner path name typeColumn relation load))
          (level.filter (typeValueAt typeColumn · = some typeValue))
          (rows.filter (typeValueAt typeColumn · = some typeValue)) :=
        hrows.filter fun row row' hfinds htype =>
          decide_eq_true (hfinds.2 typeValue (of_decide_eq_true htype))
      exact hnamed.map fun row row' hfinds => (typedAfter_get?_of_ne hname done row').trans hfinds.1
    obtain ⟨finish, hfetched⟩ := (hanswers htarget).fetched hdrawn start
    rw [← filter_typedAfter] at hfetched
    refine ⟨finish, (yields_loadOwnersOf_iff htarget).mpr ⟨_, hfetched, ?_⟩⟩
    rw [List.map_map]
    refine List.map_congr_left fun row hrow => (putOwners_typedAfter hname (hcomputed htarget)
      htarget fun htype => ?_).symm
    rw [filter_typedAfter]
    exact List.mem_map_of_mem (List.mem_filter.mpr ⟨hrow, by simp [htype]⟩)

theorem rowwise_owner
    (hanswers : ∀ {typeValue target}, schema.morph? typeValue = some target →
      AnswersFrom db (.ofRelation relation target load) relation.foreignKey relation.localKey
        (level.filter (typeValueAt typeColumn · = some typeValue)) (tables.owners path typeValue))
    (hname : relation.foreignKey ≠ name)
    (hcomputed : ∀ {typeValue target}, schema.morph? typeValue = some target →
      target.isComputed relation.localKey = false)
    (hrows : Drawn (Finds (.owner path name typeColumn relation load)) level rows) :
    Rowwise (runStep db schema (.owner path name typeColumn relation load))
      (joinStep schema tables (.owner path name typeColumn relation load)) rows := by
  refine rowwise_of_forall fun part hpart start => ?_
  rw [runStep]
  unfold loadOwners
  have hfold : ∀ types done start, ∃ finish,
      Yields (types.foldlM (loadOwnersOf db schema name relation load)
        (part.map (typedAfter schema tables path name typeColumn relation done))) start
        (part.map (typedAfter schema tables path name typeColumn relation (done ++ types)))
        finish := by
    intro types
    induction types with
    | nil =>
      intro done start
      exact ⟨start, yields_pure.mpr ⟨by rw [List.append_nil], rfl⟩⟩
    | cons typeValue types ih =>
      intro done start
      obtain ⟨middle, hfirst⟩ :=
        yields_loadOwnersOf hanswers hname hcomputed (hrows.sublist hpart) done start
      obtain ⟨finish, hrest⟩ := ih (done ++ [typeValue]) middle
      rw [List.append_assoc, List.singleton_append] at hrest
      exact ⟨finish, by rw [List.foldlM_cons]; exact yields_bind.mpr ⟨_, _, hfirst, hrest⟩⟩
  have hstart : (part.map fun row => Typed.mk (typeValueAt typeColumn row)
      (row.insert name .null)) =
      part.map (typedAfter schema tables path name typeColumn relation []) := by
    simp [typedAfter, ownerAfter]
  rw [hstart]
  obtain ⟨finish, hyields⟩ := hfold (typesOf
    (part.map (typedAfter schema tables path name typeColumn relation []))) [] start
  refine ⟨finish, yields_bind.mpr ⟨_, _, hyields, yields_pure.mpr ⟨?_, rfl⟩⟩⟩
  rw [List.map_map]
  refine List.map_congr_left fun row hrow => ?_
  rw [Function.comp_apply, typedAfter, joinStep, List.nil_append]
  cases htype : typeValueAt typeColumn row with
  | none => simp [ownerAfter, ownerOf, htype]
  | some typeValue =>
    have hmem : typeValue ∈ typesOf
        (part.map (typedAfter schema tables path name typeColumn relation [])) := by
      rw [typesOf, Dict.mem_keys_ofList]
      simp only [List.map_filterMap, List.mem_filterMap, List.mem_map]
      exact ⟨_, ⟨row, hrow, rfl⟩, by simp [typedAfter, htype]⟩
    rw [ownerAfter, if_pos ⟨typeValue, hmem, htype⟩]

end Owner

end Load

end RestQuery
