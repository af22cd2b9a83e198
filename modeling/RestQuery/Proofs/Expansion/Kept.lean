import RestQuery.Proofs.Expansion.Items
import RestQuery.Proofs.Parsed
import RestQuery.Proofs.Placement

/-!
# What a restricted projection keeps

A level is restricted when the request selects columns of the root rows, or names columns of an
expanded relation. The projection of a restricted level then consists of the named columns, of the
keys by which the rows are tied to their parents, and of the keys of the relations that the request
expands below. Nothing else is kept, whatever the order and the number of the paths.
-/

namespace RestQuery

open Text

/-- A projection of a table names a column, with or without the table. -/
def Names (table : String) (columns : List String) (column : String) : Prop :=
  ∃ c ∈ columns, qualify table c = table ++ "." ++ column

section Names

variable {table column : String} {columns : List String}

@[simp] theorem names_nil : ¬ Names table [] column := by
  simp [Names]

@[simp] theorem names_cons {c : String} : Names table (c :: columns) column ↔
    qualify table c = table ++ "." ++ column ∨ Names table columns column := by
  simp [Names]

@[simp] theorem names_append {more : List String} :
    Names table (columns ++ more) column ↔
      Names table columns column ∨ Names table more column := by
  simp only [Names, List.mem_append, or_and_right, exists_or]

/-- A column that is skipped is there under another name. -/
theorem names_extendSelect {select : List String} :
    Names table (extendSelect table select columns) column ↔
      Names table select column ∨ Names table columns column := by
  induction columns generalizing select with
  | nil => simp [extendSelect]
  | cons c columns ih =>
    rw [extendSelect_cons, ih, names_cons, ← or_assoc]
    refine or_congr ?_ Iff.rfl
    split
    · next hany =>
      obtain ⟨present, hpresent, hsame⟩ := List.any_eq_true.mp hany
      constructor
      · exact Or.inl
      · rintro (h | h)
        · exact h
        · exact ⟨present, hpresent, (eq_of_beq hsame).trans h⟩
    · rw [names_append, names_cons]
      simp

end Names

namespace Request

def expandItems (r : Request) : List ExpandItem := ExpandClause.items r.context r.params

/-- Some path that the request expands goes through these segments. -/
def Expands (r : Request) (segments : List String) : Prop :=
  ∃ item ∈ r.expandItems, segments <+: pieces '.' item.path

/-- The columns that an expansion keeps at a path: the keys of the relations expanded below it, and
where the path itself is expanded with columns, these columns and the keys of its last relation. -/
inductive Tied (r : Request) (path : String) : String → Prop
  | below {above : List String} {name : String} {parent : Entity} {relation : Relation}
      {key : String} (hexpands : r.Expands (above ++ [name]))
      (hat : RelationAt r.handler.schema.expandsTo r.entity above name parent relation)
      (hpath : levelPath above = path) (hkey : key ∈ relation.parentKeys parent.primaryKey) :
      Tied r path (parent.qualified key)
  | own {item : ExpandItem} {above : List String} {name : String} {parent target : Entity}
      {relation : Relation} {column : String} (hitem : item ∈ r.expandItems)
      (hcolumns : item.columns ≠ []) (hpieces : pieces '.' item.path = above ++ [name])
      (hat : RelationAt r.handler.schema.expandsTo r.entity above name parent relation)
      (htarget : relation.related.bind r.handler.schema.entity? = some target)
      (hpath : item.path = path)
      (hcolumn : column ∈ relation.relatedKeys (some target.primaryKey) ++ item.columns) :
      Tied r path (target.qualified column)

section Parsed

variable {handler : Handler} {entityName : String} {id : Option String} {ps : Parameters}
  {r : Request} (h : r.Parsed handler entityName id ps)

include h

theorem Parsed.registered_entity : ∃ name, r.handler.schema.entity? name = some r.entity :=
  ⟨entityName, by rw [h.handler_eq]; exact h.registered⟩

theorem Parsed.accepted : ExpandClause.Accepted r.context r.expandItems ∧
    r.clauses.expand.expansion =
      Expansion.empty.markAll (ExpandClause.marksOf r.context r.expandItems) := by
  have hread := ExpandClause.read_eq_accept_iff.mp h.read.expand
  rw [← h.params_eq] at hread
  exact ExpandClause.gather_take_eq_accept_iff.mp hread

theorem Parsed.relationAt_of_expands {above : List String} {name : String}
    (he : r.Expands (above ++ [name])) :
    ∃ parent relation,
      RelationAt r.handler.schema.expandsTo r.entity above name parent relation := by
  obtain ⟨parent, relation, hat, -⟩ := h.accepted.1.exists_relationAt he
  exact ⟨parent, relation, hat⟩

theorem Parsed.mem_entry_all {path c : String} :
    c ∈ (r.clauses.expand.expansion.entry path).all ↔ r.Tied path c := by
  rw [PathColumns.mem_all, h.accepted.2, h.accepted.1.mem_required_iff,
    h.accepted.1.mem_requested_iff]
  constructor
  · rintro ((⟨above, name, parent, relation, hexpands, hpath, hat, hc⟩ |
      ⟨item, hitem, rfl, hcolumns, above, name, parent, relation, target, hpieces, hat, htarget,
        hc⟩) |
      ⟨item, hitem, rfl, above, name, parent, relation, target, hpieces, hat, htarget, hc⟩)
    · obtain ⟨key, hkey, rfl⟩ := List.mem_map.mp hc
      exact .below hexpands hat hpath hkey
    · obtain ⟨key, hkey, rfl⟩ := List.mem_map.mp hc
      exact .own hitem hcolumns hpieces hat htarget rfl (List.mem_append_left _ hkey)
    · obtain ⟨column, hcolumn, rfl⟩ := List.mem_map.mp hc
      exact .own hitem (List.ne_nil_of_mem hcolumn) hpieces hat htarget rfl
        (List.mem_append_right _ hcolumn)
  · intro htied
    cases htied with
    | @below above name parent relation key hexpands hat hpath hkey =>
      exact Or.inl (Or.inl ⟨above, name, parent, relation, hexpands, hpath, hat,
        List.mem_map_of_mem hkey⟩)
    | @own item above name parent target relation column hitem hcolumns hpieces hat htarget hpath
        hcolumn =>
      subst hpath
      rcases List.mem_append.mp hcolumn with hkey | hnamed
      · exact Or.inl (Or.inr ⟨item, hitem, rfl, hcolumns, above, name, parent, relation, target,
          hpieces, hat, htarget, List.mem_map_of_mem hkey⟩)
      · exact Or.inr ⟨item, hitem, rfl, above, name, parent, relation, target, hpieces, hat,
          htarget, List.mem_map_of_mem hnamed⟩

theorem Parsed.exists_item_of_requested {path : String}
    (hrequested : (r.clauses.expand.expansion.entry path).requested ≠ []) :
    ∃ item ∈ r.expandItems, item.path = path ∧ item.columns ≠ [] := by
  obtain ⟨c, hc⟩ := List.exists_mem_of_ne_nil _ hrequested
  rw [h.accepted.2, h.accepted.1.mem_requested_iff] at hc
  obtain ⟨item, hitem, hpath, -, -, -, -, target, -, -, -, hc⟩ := hc
  obtain ⟨column, hcolumn, -⟩ := List.mem_map.mp hc
  exact ⟨item, hitem, hpath, List.ne_nil_of_mem hcolumn⟩

theorem Parsed.mem_relationPaths {path : String} :
    path ∈ r.clauses.expand.expansion.relationPaths ↔
      path ≠ rootPath ∧ r.Expands (pieces '.' path) := by
  rw [Expansion.relationPaths, List.mem_filter, decide_eq_true_eq, and_comm, h.accepted.2,
    h.accepted.1.mem_keys_iff]
  refine and_congr_right fun hroot => ?_
  constructor
  · rintro (⟨hpath, -⟩ | ⟨segments, -, ⟨item, hitem, hthrough⟩, hpath⟩)
    · exact absurd hpath hroot
    · have hundotted : ∀ s ∈ segments, Undotted s := fun s hs =>
        undotted_of_mem_pieces (hthrough.subset hs)
      rw [pieces_of_pathTo hundotted hpath]
      exact ⟨item, hitem, hthrough⟩
  · intro hexpands
    exact Or.inr ⟨pieces '.' path, pieces_ne_nil path, hexpands, pathTo_pieces path⟩

end Parsed

end Request

/-! ### Projections of levels -/

namespace Expansion

theorem columns_eq (e : Expansion) (path : String) : e.columns path = (e.entry path).all := by
  unfold columns entry
  cases e.get? path <;> rfl

theorem projection_eq_some_iff {e : Expansion} {path : String} {columns : List String} :
    e.projection path = some columns ↔
      (e.entry path).requested ≠ [] ∧ (e.entry path).all = columns := by
  unfold projection entry
  cases e.get? path with
  | none => simp [PathColumns.empty]
  | some cols => by_cases hc : cols.requested = [] <;> simp [hc]

end Expansion

/-- The restricted projection of a level, `none` if every column of its rows is loaded. -/
def Plan.restriction (plan : Plan) (level : List String) : Option (List String) :=
  match pathTo level with
  | none => if plan.select = [] then none else some plan.select
  | some path => (plan.loadAt path).columns

namespace Request

/-- The columns of `parent` that a restricted level keeps: what is tied to it, and at the root what
is selected. -/
def Kept (r : Request) (level : List String) (parent : Entity) (column : String) : Prop :=
  level = [] ∧ Names parent.table r.clauses.select.columns column ∨
    r.Tied (levelPath level) (parent.qualified column)

section Parsed

variable {handler : Handler} {entityName : String} {id : Option String} {ps : Parameters}
  {r : Request} (h : r.Parsed handler entityName id ps)

include h

theorem Parsed.loadAt_columns (path : String) :
    (r.apply.plan.loadAt path).columns =
      if path ∈ r.clauses.expand.expansion.relationPaths
      then r.clauses.expand.expansion.projection path else none := by
  rw [h.apply_plan, Clauses.loadAt_apply]
  cases id <;> rfl

theorem Parsed.select_eq :
    r.apply.plan.select =
      if extendSelect r.entity.table [] r.clauses.select.columns = [] then []
      else extendSelect r.entity.table (extendSelect r.entity.table [] r.clauses.select.columns)
        (r.clauses.expand.expansion.entry rootPath).all := by
  rw [h.apply_plan, Clauses.apply_select, Expansion.columns_eq]
  cases id <;> rfl

theorem Parsed.names_entry_iff {entity : Entity} {path column : String} :
    Names entity.table (r.clauses.expand.expansion.entry path).all column ↔
      r.Tied path (entity.qualified column) := by
  have hdotted : ∀ c, r.Tied path c → qualify entity.table c = c := by
    intro c htied
    cases htied <;> exact qualify_of_dotted _ (not_undotted_dotted _ _)
  constructor
  · rintro ⟨c, hc, hname⟩
    rw [h.mem_entry_all] at hc
    rw [hdotted c hc] at hname
    rwa [Entity.qualified, ← hname]
  · intro htied
    exact ⟨_, h.mem_entry_all.mpr htied, hdotted _ htied⟩

/-- A restricted projection names exactly the columns that the level keeps. -/
theorem Parsed.names_iff_kept {level : List String} {parent : Entity}
    (hparent : level = [] → parent = r.entity) {columns : List String}
    (hrestricted : r.apply.plan.restriction level = some columns) {column : String} :
    Names parent.table columns column ↔ r.Kept level parent column := by
  unfold Plan.restriction at hrestricted
  unfold Kept levelPath
  cases hpath : pathTo level with
  | none =>
    obtain rfl : level = [] := pathTo_eq_none_iff.mp hpath
    obtain rfl := hparent rfl
    rw [hpath] at hrestricted
    split_ifs at hrestricted with hselect
    obtain rfl := Option.some.inj hrestricted
    rw [h.select_eq] at hselect ⊢
    split_ifs at hselect ⊢
    · exact absurd rfl hselect
    · rw [names_extendSelect, names_extendSelect, h.names_entry_iff]
      simp
  | some path =>
    have hne : level ≠ [] := by
      rintro rfl
      cases hpath
    rw [hpath] at hrestricted
    change (r.apply.plan.loadAt path).columns = some columns at hrestricted
    rw [h.loadAt_columns] at hrestricted
    split_ifs at hrestricted
    obtain ⟨-, rfl⟩ := Expansion.projection_eq_some_iff.mp hrestricted
    simp [hne, h.names_entry_iff]

end Parsed

end Request

end RestQuery
