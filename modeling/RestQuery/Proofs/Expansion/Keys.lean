import RestQuery.Proofs.Expansion.Kept

/-!
# Keys of expanded relations

The loader groups the related rows of an expanded relation by their join column and looks them up by
the join column of the parent rows. Both survive every restriction: the parent level keeps the
columns that are read there, and the select of the related rows puts out their join column, as a
column of its own, among all columns, or as the key of a second table.
-/

namespace RestQuery

open Text Schema Sql

/-- The item puts out a column of a table under this name, or all its columns. -/
def Sql.Item.PutsOut (table name : String) : Item → Prop
  | .everyColumn t => t = table
  | .column ref => ref = ⟨table, name⟩
  | .labelled _ label => label = name
  | .score _ _ label => label = name

/-- A projection of a table names a column. -/
def Projects (table : String) (columns : List String) (ref : ColumnRef) : Prop :=
  ∃ c ∈ columns, ColumnRef.resolve table c = ref

theorem projects_of_names {table column : String} {columns : List String} (ht : Undotted table)
    (h : Names table columns column) : Projects table columns ⟨table, column⟩ := by
  obtain ⟨c, hc, hname⟩ := h
  refine ⟨c, hc, ?_⟩
  rw [← ColumnRef.resolve_qualify ht, hname, ColumnRef.resolve_dotted table ht]

theorem Sql.mem_projection {table : String} {columns : List String} {ref : ColumnRef}
    (h : Projects table columns ref) : Item.column ref ∈ projection table columns none := by
  obtain ⟨c, hc, rfl⟩ := h
  have hne : columns ≠ [] := List.ne_nil_of_mem hc
  simpa [projection, hne, columnItem] using ⟨c, hc, rfl⟩

theorem Relation.relatedJoinColumn_of_usesSecondTable {relation : Relation}
    (h : relation.kind.usesSecondTable = true) : relation.relatedJoinColumn = pivotAlias := by
  unfold relatedJoinColumn
  cases hk : relation.kind <;> simp_all [RelationKind.usesSecondTable]

/-- A relation that takes columns is tied by a related key or by a second table. -/
theorem Relation.relatedJoinColumn_mem_relatedKeys {relation : Relation}
    (h : relation.kind.usesSecondTable = false) (hc : relation.kind.rejectsColumns = false)
    (primaryKey : Option String) :
    relation.relatedJoinColumn ∈ relation.relatedKeys primaryKey := by
  unfold relatedJoinColumn relatedKeys
  cases hk : relation.kind <;>
    simp_all [RelationKind.usesSecondTable, RelationKind.rejectsColumns]

namespace Request

variable {handler : Handler} {entityName : String} {id : Option String} {ps : Parameters}
  {r : Request}

theorem kept_of_expands {above : List String} {name : String} (he : r.Expands (above ++ [name]))
    {parent : Entity} {relation : Relation}
    (hat : RelationAt r.handler.schema.expandsTo r.entity above name parent relation) {key : String}
    (hkey : key ∈ relation.parentKeys parent.primaryKey) : r.Kept above parent key :=
  Or.inr (.below he hat rfl hkey)

theorem Parsed.relatedKey_putOut (h : r.Parsed handler entityName id ps)
    (ht : r.handler.schema.UndottedTables) {path : String} {above : List String} {name : String}
    (hpieces : pieces '.' path = above ++ [name]) {parent : Entity} {relation : Relation}
    (hat : RelationAt r.handler.schema.expandsTo r.entity above name parent relation)
    (hbuilt : relation.Built) {target : Entity}
    (htarget : relation.kind ≠ .morphTo →
      relation.related.bind r.handler.schema.entity? = some target) (keys : List Value) :
    ∃ item ∈ (relationSelect relation target (r.apply.plan.loadAt path) keys).items,
      item.PutsOut target.table relation.relatedJoinColumn := by
  unfold relationSelect
  simp only [List.mem_append]
  by_cases hs : relation.kind.usesSecondTable = true
  · obtain ⟨ref, hitem⟩ := hbuilt.exists_keyItem hs target keys
    refine ⟨.labelled ref Relation.pivotAlias, Or.inr (by simp [hitem]), ?_⟩
    exact (Relation.relatedJoinColumn_of_usesSecondTable hs).symm
  rw [Bool.not_eq_true] at hs
  cases hload : (r.apply.plan.loadAt path).columns with
  | none => exact ⟨.everyColumn target.table, Or.inl (by simp [projection]), rfl⟩
  | some columns =>
    rw [h.loadAt_columns] at hload
    split_ifs at hload
    obtain ⟨hrequested, rfl⟩ := Expansion.projection_eq_some_iff.mp hload
    obtain ⟨item, hitem, hpath, hcolumns⟩ := h.exists_item_of_requested hrequested
    rw [← hpath] at hpieces
    have hrejects := h.accepted.1.rejectsColumns_eq_false hitem hcolumns hpieces hat
    have hk : relation.kind ≠ .morphTo := by
      intro hk
      simp [hk, RelationKind.rejectsColumns] at hrejects
    obtain ⟨related, -, hregistered⟩ := Option.bind_eq_some_iff.mp (htarget hk)
    have htied : r.Tied path (target.qualified relation.relatedJoinColumn) :=
      .own hitem hcolumns hpieces hat (htarget hk) hpath (List.mem_append_left _
        (Relation.relatedJoinColumn_mem_relatedKeys hs hrejects _))
    have hnames := projects_of_names (ht hregistered) (h.names_entry_iff.mpr htied)
    exact ⟨_, Or.inl (mem_projection hnames), rfl⟩

/-- Whatever a request restricts, every relation that it expands finds its keys: on the parent rows
the columns that the loader reads, and on the related rows the column that they are grouped by. -/
theorem expanded_keys_projected (hb : handler.schema.Built) (ht : handler.schema.UndottedTables)
    (h : handler.parse entityName id ps = .ok r) {path : String}
    (hpath : path ∈ r.clauses.expand.expansion.relationPaths) :
    ∃ above name parent relation, pieces '.' path = above ++ [name] ∧
      RelationAt handler.schema.loadsTo r.entity above name parent relation ∧
      (∀ columns, r.apply.plan.restriction above = some columns →
        Projects parent.table columns
          ⟨parent.table, relation.parentJoinColumn parent.primaryKey⟩ ∧
        (relation.kind = .morphTo → ∃ typeColumn, relation.typeColumn = some typeColumn ∧
          Projects parent.table columns ⟨parent.table, typeColumn⟩)) ∧
      ∀ target,
        (relation.kind ≠ .morphTo → relation.related.bind handler.schema.entity? = some target) →
        ∀ keys, ∃ item ∈ (relationSelect relation target (r.apply.plan.loadAt path) keys).items,
          item.PutsOut target.table relation.relatedJoinColumn := by
  have hparsed := parsed_of_parse h
  obtain rfl := hparsed.handler_eq
  obtain ⟨-, he⟩ := hparsed.mem_relationPaths.mp hpath
  obtain ⟨above, name, hpieces⟩ := exists_pieces_eq_concat path
  rw [hpieces] at he
  obtain ⟨parent, relation, hat⟩ := hparsed.relationAt_of_expands he
  have hloads := (hb.relationAt_iff hparsed.registered_entity).mp hat
  obtain ⟨parentName, hparent⟩ := exists_name_of_entityAt hparsed.registered_entity hloads.level
  have hbuilt : relation.Built := hb hparent hat.declared
  refine ⟨above, name, parent, relation, hpieces, hloads, ?_, ?_⟩
  · intro columns hrestricted
    have hkey : ∀ key ∈ relation.parentKeys parent.primaryKey,
        Projects parent.table columns ⟨parent.table, key⟩ := by
      intro key hkey
      apply projects_of_names (ht hparent)
      exact (hparsed.names_iff_kept hat.eq_root hrestricted).mpr (kept_of_expands he hat hkey)
    refine ⟨hkey _ (List.mem_cons_self ..), fun hk => ?_⟩
    obtain ⟨typeColumn, htype⟩ := hbuilt.exists_typeColumn hk
    exact ⟨typeColumn, htype, hkey typeColumn (by simp [Relation.parentKeys, hk, htype])⟩
  · exact fun target htarget keys => hparsed.relatedKey_putOut ht hpieces hat hbuilt htarget keys

/-! ### Posts with comments -/

def postEntity : Entity :=
  (Entity.ofTable "posts" "posts").addRelation "comments" (.hasMany "comments" "post_id" "id")

def commentEntity : Entity :=
  (Entity.ofTable "comments" "comments").addRelation "user" (.belongsTo "users" "user_id" "id")

def userEntity : Entity := Entity.ofTable "users" "users"

def blogSchema : Schema := ((Schema.empty.add postEntity).add commentEntity).add userEntity

theorem built_blogSchema : blogSchema.Built :=
  ((built_empty.add ((Entity.built_ofTable _ _).addRelation _ (.hasMany _ _ _))).add
    ((Entity.built_ofTable _ _).addRelation _ (.belongsTo _ _ _))).add (Entity.built_ofTable _ _)

theorem undottedTables_blogSchema : blogSchema.UndottedTables :=
  ((undottedTables_empty.add (by decide)).add (by decide)).add (by decide)

def blogHandler : Handler :=
  ⟨{ Settings.default with allow := .permissive }, blogSchema, .default⟩

/-- Titles of posts, texts of their comments and names of the users who wrote these. -/
def blogParameters : Parameters :=
  .ofPairs [("select", "title"), ("expand", "comments[text],comments.user[name]")]

theorem expanded_keys_projected_of_blog :
    ∃ r columns parent relation, blogHandler.parse "posts" none blogParameters = .ok r ∧
      "comments.user" ∈ r.clauses.expand.expansion.relationPaths ∧
      r.apply.plan.restriction ["comments"] = some columns ∧
      RelationAt blogSchema.loadsTo r.entity ["comments"] "user" parent relation ∧
      Projects parent.table columns
        ⟨parent.table, relation.parentJoinColumn parent.primaryKey⟩ := by
  have hread : (blogHandler.parse "posts" none blogParameters).toOption.map (fun r =>
      (r.clauses.expand.expansion.relationPaths, r.apply.plan.restriction ["comments"])) =
      some (["comments", "comments.user"],
        some ["comments.post_id", "comments.user_id", "comments.text"]) := by
    decide +kernel
  cases hparse : blogHandler.parse "posts" none blogParameters with
  | error failure => simp [hparse, Except.toOption] at hread
  | ok r =>
    simp only [hparse, Except.toOption, Option.map_some, Option.some.injEq, Prod.mk.injEq] at hread
    obtain ⟨hpaths, hrestricted⟩ := hread
    have hmem : "comments.user" ∈ r.clauses.expand.expansion.relationPaths := by simp [hpaths]
    have hbuilt : blogHandler.schema.Built := built_blogSchema
    obtain ⟨above, name, parent, relation, hpieces, hat, hkeys, -⟩ :=
      expanded_keys_projected hbuilt undottedTables_blogSchema hparse hmem
    have hcut : pieces '.' "comments.user" = ["comments"] ++ ["user"] := by decide
    obtain ⟨rfl, hname⟩ := List.append_inj' (hcut.symm.trans hpieces) rfl
    obtain rfl := List.singleton_injective hname
    exact ⟨r, _, parent, relation, rfl, hmem, hrestricted, hat, (hkeys _ hrestricted).1⟩

end Request

end RestQuery
