import RestQuery.Proofs.Load.Owners
import RestQuery.Proofs.Load.Sent
import RestQuery.Proofs.Sql.Tie

/-!
# What a load leaves of the rows

A load writes to a row under the names of the relations that it loads there, and then the computed
fields. All else is as the database returned it, on the root rows and on the rows of every level.
Only the alias that was projected to tie related rows to their parents is removed from them. Under
the name of each relation there is an array of rows, or at most one row where the relation is to
one, also where nothing was asked for.
-/

namespace RestQuery

open Sql Schema Stitch Load LoadStep
open RestQuery.Relation (pivotAlias)

/-! ### The alias of the pivot key -/

/-- No relation of an entity is named like one of its computed fields. -/
def Entity.Apart (entity : Entity) : Prop :=
  ∀ name, entity.isRelation name = true → entity.isComputed name = false

def Schema.Apart (schema : Schema) : Prop :=
  ∀ ⦃name entity⦄, schema.entity? name = some entity → entity.Apart

/-- The alias of the pivot key is a key of no rows but those that are returned for a statement that
projects it. -/
def Database.ProjectsPivot (db : Database) : Prop :=
  ∀ sent s rows, db (sent ++ [.select s]) = .rows rows →
    (∃ ref, .labelled ref pivotAlias ∈ s.items) ∨ ∀ row ∈ rows, row.get? pivotAlias = none

namespace Sql

theorem column_of_mem_projection {table : String} {columns : List String} {item : Item}
    (h : item ∈ projection table columns none) :
    item = .everyColumn table ∨ ∃ ref, item = .column ref := by
  change item ∈ (if columns.isEmpty then [.everyColumn table]
    else columns.map (columnItem table none)) at h
  split at h
  · exact .inl (List.mem_singleton.mp h)
  · obtain ⟨column, -, rfl⟩ := List.mem_map.mp h
    exact .inr ⟨_, rfl⟩

/-- Only what is tied through a second table is selected with a label. -/
theorem kind_of_labelled_mem_items {relation : Relation} {related : Entity} {load : EagerLoad}
    {keys : List Value} {ref : ColumnRef} {label : String}
    (h : .labelled ref label ∈ (relationSelect relation related load keys).items) :
    relation.kind ≠ .morphTo ∧ relation.relatedJoinColumn = pivotAlias := by
  rcases List.mem_append.mp h with hitem | hitem
  · rcases column_of_mem_projection hitem with heq | ⟨_, heq⟩ <;> cases heq
  · rw [Option.mem_toList] at hitem
    obtain ⟨kind, target, foreignKey, localKey, typeColumn, typeValue, pivot, through⟩ := relation
    cases kind with
    | hasManyThrough | belongsToMany | morphToMany | morphedByMany => exact ⟨nofun, rfl⟩
    | _ => cases hitem

end Sql

/-! ### Finished rows -/

/-- The database returned a row for one of the statements of a log. -/
def Returned (db : Database) (log : List Statement) (statement : Statement) (row : Row) : Prop :=
  ∃ before rows, before ++ [statement] <+: log ∧ db (before ++ [statement]) = .rows rows ∧
    row ∈ rows

/-- A row that was returned without the alias has none to be removed. -/
theorem Returned.get?_pivotAlias {db : Database} {log : List Statement} (hpivot : db.ProjectsPivot)
    {relation : Relation} {target : Entity} {load : EagerLoad} {keys : List Value} {row : Row}
    (hrelation : relation.kind = .morphTo ∨ relation.relatedJoinColumn ≠ pivotAlias)
    (h : Returned db log (.ofRelation relation target load keys) row) :
    row.get? pivotAlias = none := by
  obtain ⟨before, rows, -, hrows, hrow⟩ := h
  rcases hpivot _ _ _ hrows with ⟨ref, hlabelled⟩ | hnone
  · obtain ⟨hkind, hjoin⟩ := kind_of_labelled_mem_items hlabelled
    exact absurd hrelation (by tauto)
  · exact hnone row hrow

mutual

/-- A row on which some steps were run and the fields of its entity computed. All other fields are
as they were before. -/
inductive Finished (db : Database) (schema : Schema) (log : List Statement) :
    Entity → List LoadStep → Row → Row → Prop
  | intro {entity : Entity} {steps : List LoadStep} {before row : Row}
      (kept : ∀ key, key ∉ names steps → entity.isComputed key = false →
        row.get? key = before.get? key)
      (shown : ∀ step ∈ steps, Shows db schema log step row) :
      Finished db schema log entity steps before row

/-- A finished row that was returned for a relation. The alias of the pivot key is gone. -/
inductive Attached (db : Database) (schema : Schema) (log : List Statement) :
    Relation → Entity → EagerLoad → List LoadStep → Row → Prop
  | intro {relation : Relation} {target : Entity} {load : EagerLoad} {steps : List LoadStep}
      {returned row : Row} (keys : List Value)
      (hreturned : Returned db log (.ofRelation relation target load keys) returned)
      (hfinished : Finished db schema log target steps (returned.erase pivotAlias) row) :
      Attached db schema log relation target load steps row

/-- What a row has under the name of a step. -/
inductive Shows (db : Database) (schema : Schema) (log : List Statement) :
    LoadStep → Row → Prop
  | many {path name parentColumn : String} {relation : Relation} {target : Entity}
      {load : EagerLoad} {steps : List LoadStep} {row : Row}
      (hmany : relation.kind.isToMany = true) (children : List Row)
      (hvalue : row.get? name = some (.array (children.map .object)))
      (hchildren : ∀ child ∈ children, Attached db schema log relation target load steps child) :
      Shows db schema log (.related path name parentColumn relation target load steps) row
  | one {path name parentColumn : String} {relation : Relation} {target : Entity}
      {load : EagerLoad} {steps : List LoadStep} {row : Row}
      (hone : relation.kind.isToMany = false) (child : Row)
      (hvalue : row.get? name = some (.object child))
      (hchild : Attached db schema log relation target load steps child) :
      Shows db schema log (.related path name parentColumn relation target load steps) row
  | nothing {path name parentColumn : String} {relation : Relation} {target : Entity}
      {load : EagerLoad} {steps : List LoadStep} {row : Row}
      (hone : relation.kind.isToMany = false) (hvalue : row.get? name = some .null) :
      Shows db schema log (.related path name parentColumn relation target load steps) row
  | owner {path name typeColumn typeValue : String} {relation : Relation} {target : Entity}
      {load : EagerLoad} {row : Row} (hone : relation.kind.isToMany = false)
      (htarget : schema.morph? typeValue = some target) (owner : Row)
      (hvalue : row.get? name = some (.object owner))
      (howner : Attached db schema log relation target load [] owner) :
      Shows db schema log (.owner path name typeColumn relation load) row
  | ownerless {path name typeColumn : String} {relation : Relation} {load : EagerLoad} {row : Row}
      (hone : relation.kind.isToMany = false) (hvalue : row.get? name = some .null) :
      Shows db schema log (.owner path name typeColumn relation load) row

end

section Finished

variable {db : Database} {schema : Schema} {log : List Statement} {entity : Entity}
  {steps : List LoadStep} {before row row' : Row}

theorem Shows.congr {step : LoadStep} (h : Shows db schema log step row)
    (hget : ∀ name, step.name? = some name → row'.get? name = row.get? name) :
    Shows db schema log step row' := by
  cases h with
  | many hmany children hvalue hchildren =>
    exact .many hmany children ((hget _ rfl).trans hvalue) hchildren
  | one hone child hvalue hchild => exact .one hone child ((hget _ rfl).trans hvalue) hchild
  | nothing hone hvalue => exact .nothing hone ((hget _ rfl).trans hvalue)
  | owner hone htarget owner hvalue howner =>
    exact .owner hone htarget owner ((hget _ rfl).trans hvalue) howner
  | ownerless hone hvalue => exact .ownerless hone ((hget _ rfl).trans hvalue)

theorem Finished.of_get?_eq_none (h : Finished db schema log entity steps before row)
    (hnone : before.get? pivotAlias = none) :
    Finished db schema log entity steps (before.erase pivotAlias) row := by
  obtain ⟨kept, shown⟩ := h
  refine .intro (fun key hkey hcomputed => ?_) shown
  rw [kept key hkey hcomputed]
  by_cases hpivot : key = pivotAlias
  · simp [hpivot, hnone]
  · simp [hpivot]

/-- The alias can be removed after the row is finished, if no relation took its place. -/
theorem Finished.erase (h : Finished db schema log entity steps before row)
    (hnames : pivotAlias ∉ names steps) :
    Finished db schema log entity steps (before.erase pivotAlias) (row.erase pivotAlias) := by
  obtain ⟨kept, shown⟩ := h
  refine .intro (fun key hkey hcomputed => ?_) fun step hstep => ?_
  · by_cases hpivot : key = pivotAlias
    · simp [hpivot]
    · simp [hpivot, kept key hkey hcomputed]
  · refine (shown step hstep).congr fun name hname => Dict.get?_erase_of_ne _ ?_
    rintro rfl
    exact hnames (List.mem_filterMap.mpr ⟨step, hstep, hname⟩)

end Finished

/-! ### Every step shows what it loads -/

namespace Load

variable {db : Database} {schema : Schema} {loads : Dict EagerLoad}
  {log sent sent' : List Statement} {rows out : List Row}

theorem prefix_of_yields {α : Type} {P : Statement → Prop} {x : Run α} {a : α} (hx : SendsOnly P x)
    (h : Yields x sent a sent') : sent <+: sent' := by
  obtain ⟨more, hsent, -⟩ := hx sent
  rw [h] at hsent
  exact ⟨more, hsent.symm⟩

theorem finished_compute {entity : Entity} {returned : Row} :
    Finished db schema log entity [] returned (entity.compute returned) :=
  .intro (fun _ _ hcomputed => Entity.get?_compute hcomputed returned) (by simp)

theorem Fetched.returned {relation : Relation} {target : Entity} {load : EagerLoad}
    {keys : List Value} {children : List Row} {row : Row}
    (h : Fetched db relation target load keys sent children sent') (hlog : sent' <+: log)
    (hrow : row ∈ children) : Returned db log (.ofRelation relation target load keys) row := by
  unfold Fetched at h
  split at h
  · rw [h.1] at hrow
    cases hrow
  · obtain ⟨rfl, hrows⟩ := h
    exact ⟨sent, children, hlog, hrows, hrow⟩

theorem shows_loadOwnersOf (hpivot : db.ProjectsPivot) {path name typeColumn typeValue : String}
    {relation : Relation} (hkind : relation.kind = .morphTo) {load : EagerLoad}
    {typed typed' : List Typed}
    (h : Yields (loadOwnersOf db schema name relation load typed typeValue) sent typed' sent')
    (hlog : sent' <+: log)
    (hrows : ∀ t ∈ typed, Shows db schema log (.owner path name typeColumn relation load) t.row) :
    ∀ t ∈ typed', Shows db schema log (.owner path name typeColumn relation load) t.row := by
  cases htarget : schema.morph? typeValue with
  | none =>
    obtain ⟨rfl, -⟩ := (yields_loadOwnersOf_of_unnamed htarget).mp h
    exact hrows
  | some target =>
    obtain ⟨found, hfetched, rfl⟩ := (yields_loadOwnersOf_iff htarget).mp h
    refine List.forall_mem_map.mpr fun t ht => ?_
    unfold putOwners
    split
    · change Shows db schema log _ (attachOwner _ _ _ _)
      unfold attachOwner
      rw [bind_get?_owners]
      cases hlast : (matching relation.localKey (keyAt relation.foreignKey t.row)
        (found.map target.compute)).getLast? with
      | none => exact hrows t ht
      | some owner =>
        have howner : owner ∈ found.map target.compute :=
          (List.mem_filter.mp (List.mem_of_getLast? hlast)).1
        obtain ⟨returned, hmem, rfl⟩ := List.mem_map.mp howner
        have hreturned := hfetched.returned hlog hmem
        refine .owner (by rw [hkind]; rfl) htarget _ (Dict.get?_insert_self ..) ?_
        exact .intro _ hreturned
          (finished_compute.of_get?_eq_none (hreturned.get?_pivotAlias hpivot (.inl hkind)))
    · exact hrows t ht

theorem shows_loadOwners (hpivot : db.ProjectsPivot) {path name typeColumn : String}
    {relation : Relation} (hkind : relation.kind = .morphTo) {load : EagerLoad}
    (h : Yields (loadOwners db schema name typeColumn relation load rows) sent out sent')
    (hlog : sent' <+: log) :
    ∀ row ∈ out, Shows db schema log (.owner path name typeColumn relation load) row := by
  have hfold : ∀ {types : List String} {typed typed' : List Typed} {sent},
      Yields (types.foldlM (loadOwnersOf db schema name relation load) typed) sent typed' sent' →
      (∀ t ∈ typed, Shows db schema log (.owner path name typeColumn relation load) t.row) →
      ∀ t ∈ typed', Shows db schema log (.owner path name typeColumn relation load) t.row := by
    intro types
    induction types with
    | nil =>
      intro typed typed' sent hyields hrows
      obtain ⟨rfl, -⟩ := yields_pure.mp hyields
      exact hrows
    | cons type types ih =>
      intro typed typed' sent hyields hrows
      rw [List.foldlM_cons] at hyields
      obtain ⟨next, middle, hfirst, hrest⟩ := yields_bind.mp hyields
      have hmiddle : middle <+: log := (prefix_of_yields
        (sendsOnly_foldlM (sendsOnly_loadOwnersOf path name typeColumn relation load) _ _)
        hrest).trans hlog
      exact ih hrest (shows_loadOwnersOf hpivot hkind hfirst hmiddle hrows)
  unfold loadOwners at h
  obtain ⟨typed, middle, hyields, h⟩ := yields_bind.mp h
  obtain ⟨rfl, rfl⟩ := yields_pure.mp h
  refine List.forall_mem_map.mpr (hfold hyields (List.forall_mem_map.mpr fun row _ => ?_))
  exact .ownerless (by rw [hkind]; rfl) (Dict.get?_insert_self ..)

theorem shows_insert_shown {path name parentColumn : String} {relation : Relation}
    {target : Entity} {load : EagerLoad} {steps : List LoadStep} {column : String}
    {children : List Row} (row : Row) (hchildren : ∀ child ∈ children,
      Attached db schema log relation target load steps (detached column child)) :
    Shows db schema log (.related path name parentColumn relation target load steps)
      (row.insert name (shown relation.kind.isToMany
        (children.map fun child => .object (detached column child)))) := by
  have hget := fun value => Dict.get?_insert_self row name value
  cases hmany : relation.kind.isToMany with
  | true =>
    refine .many hmany (children.map (detached column)) ?_ (List.forall_mem_map.mpr hchildren)
    rw [hget, List.map_map]
    rfl
  | false =>
    cases children with
    | nil => exact .nothing hmany (hget _)
    | cons child children =>
      exact .one hmany (detached column child) (hget _) (hchildren child (List.mem_cons_self ..))

theorem finished_level {entity : Entity} {steps : List LoadStep}
    (hcomputed : ∀ name ∈ names steps, entity.isComputed name = false)
    (hshows : ∀ {loaded}, Yields (runSteps db schema steps rows) sent loaded sent' →
      ∀ row ∈ loaded, ∀ step ∈ steps, Shows db schema log step row)
    (h : Yields (level entity (runSteps db schema steps) rows) sent out sent') :
    List.Forall₂ (Finished db schema log entity steps) rows out := by
  unfold level at h
  split at h
  · next hempty =>
    obtain ⟨rfl, -⟩ := yields_pure.mp h
    rw [List.isEmpty_iff.mp hempty]
    exact .nil
  · obtain ⟨loaded, middle, hsteps, h⟩ := yields_bind.mp h
    obtain ⟨rfl, rfl⟩ := yields_pure.mp h
    rw [List.forall₂_map_right_iff]
    have hboth : List.Forall₂ (fun row row' =>
        (∀ step ∈ steps, Shows db schema log step row) ∧ Loaded steps row' row) loaded rows :=
      (List.forall₂_and_left _ _).mpr ⟨hshows hsteps, (runSteps_loaded hsteps).flip⟩
    refine hboth.flip.imp fun row row' ⟨hrow, hloaded⟩ => .intro ?_ ?_
    · intro key hkey hcomputed
      rw [Entity.get?_compute hcomputed, hloaded.get?_eq hkey]
    · intro step hstep
      refine (hrow step hstep).congr fun name hname => Entity.get?_compute ?_ row'
      exact hcomputed name (List.mem_filterMap.mpr ⟨step, hstep, hname⟩)

theorem attached_of_matching (hpivot : db.ProjectsPivot) {relation : Relation} {target : Entity}
    {load : EagerLoad} {steps : List LoadStep} {keys : List Value} {children finished : List Row}
    {middle : List Statement} (hcomputed : ∀ name ∈ names steps, target.isComputed name = false)
    (hfetched : Fetched db relation target load keys sent children middle) (hlog : middle <+: log)
    (hlevel : Yields (level target (runSteps db schema steps) children) middle finished sent')
    (hfinished : List.Forall₂ (Finished db schema log target steps) children finished)
    {key : Option String} {child : Row}
    (hchild : child ∈ matching relation.relatedJoinColumn key finished) :
    Attached db schema log relation target load steps
      (detached relation.relatedJoinColumn child) := by
  obtain ⟨hmem, htied⟩ := List.mem_filter.mp hchild
  obtain ⟨returned, hrow, hreturnedFinished⟩ := exists_of_forall₂_of_mem hfinished hmem
  have hreturned := hfetched.returned hlog hrow
  refine .intro keys hreturned ?_
  unfold detached
  split
  · next hjoin =>
    refine hreturnedFinished.erase fun hname => ?_
    -- a relation in the place of the key would leave the row without one
    obtain ⟨origin, -, hkeys⟩ := exists_of_forall₂_of_mem (level_keys hlevel) hmem
    have hnone := hkeys pivotAlias (hcomputed _ hname)
    rw [keyAfter, if_pos hname] at hnone
    rw [hjoin, hnone, sameKey_none] at htied
    cases htied
  · next hjoin =>
    exact hreturnedFinished.of_get?_eq_none (hreturned.get?_pivotAlias hpivot (.inr hjoin))

mutual

theorem shows_runStep (hall : schema.Apart) (hpivot : db.ProjectsPivot) :
    ∀ (step : LoadStep) {depth : Nat} {entity : Entity} {above : String} {pending : List String},
    step ∈ build schema loads depth entity above pending →
    ∀ {rows out : List Row} {sent sent' : List Statement},
      Yields (runStep db schema step rows) sent out sent' → sent' <+: log →
        ∀ row ∈ out, Shows db schema log step row
  | .fail path failure, _, _, _, _, _, _, _, _, _, h, _ => by
    rw [runStep] at h
    exact absurd h not_yields_throw
  | .owner path name typeColumn relation load, _, _, _, _, hstep, _, _, _, _, h, hlog => by
    have hkind : relation.kind = .morphTo := by
      rcases mem_build hstep with ⟨_, _, hfail⟩ | ⟨_, _, -, hloads⟩
      · cases hfail
      · cases hloads with
        | owner hkind => exact hkind
    rw [runStep] at h
    exact shows_loadOwners hpivot hkind h hlog
  | .related path name parentColumn relation target load steps, _, _, _, _, hstep, rows, _, _, _,
      h, hlog => by
    obtain ⟨children, middle, finished, hfetched, hlevel, rfl⟩ := runStep_related h
    obtain ⟨-, below, hbuild⟩ := related_of_mem_build hstep
    have hapart : target.Apart := by
      obtain ⟨_, -, hmade⟩ := mem_build_iff.mp hstep
      cases hmade with
      | related _ htarget =>
        obtain ⟨targetName, hregistered⟩ := Schema.exists_name_of_loadsTo htarget
        exact hall hregistered
    have hcomputed : ∀ name ∈ names steps, target.isComputed name = false := fun name hname =>
      hapart name (isRelation_of_mem_names (hbuild ▸ hname))
    have hmiddle : middle <+: log :=
      (prefix_of_yields (sendsOnly_level (sendsOnly_runSteps steps) target children) hlevel).trans
        hlog
    have hfinished : List.Forall₂ (Finished db schema log target steps) children finished := by
      refine finished_level hcomputed (fun hsteps => ?_) hlevel
      exact shows_runSteps hall hpivot steps (hbuild ▸ nodup_names_build ..)
        (fun step hmem => hbuild ▸ hmem) hsteps hlog
    intro row hrow
    rw [attach_eq] at hrow
    obtain ⟨row, -, rfl⟩ := List.mem_map.mp hrow
    have hattached : ∀ child ∈
        matching relation.relatedJoinColumn (keyAt parentColumn row) finished,
        Attached db schema log relation target load steps
          (detached relation.relatedJoinColumn child) := fun child hchild =>
      attached_of_matching hpivot hcomputed hfetched hmiddle hlevel hfinished hchild
    exact shows_insert_shown row hattached
  termination_by structural step => step

theorem shows_runSteps (hall : schema.Apart) (hpivot : db.ProjectsPivot) :
    ∀ (steps : List LoadStep) {depth : Nat} {entity : Entity} {above : String}
      {pending : List String}, (names steps).Nodup →
    (∀ step ∈ steps, step ∈ build schema loads depth entity above pending) →
    ∀ {rows out : List Row} {sent sent' : List Statement},
      Yields (runSteps db schema steps rows) sent out sent' → sent' <+: log →
        ∀ row ∈ out, ∀ step ∈ steps, Shows db schema log step row
  | [], _, _, _, _, _, _, _, _, _, _, _, _ => by simp
  | step :: rest, _, _, _, _, hnodup, hsteps, _, _, _, _, h, hlog => by
    obtain ⟨hfirst, hlater⟩ := List.forall_mem_cons.mp hsteps
    rw [runSteps] at h
    obtain ⟨rows', middle, hstep, hrest⟩ := yields_bind.mp h
    have hmiddle : middle <+: log :=
      (prefix_of_yields (sendsOnly_runSteps rest rows') hrest).trans hlog
    have hshown := shows_runStep hall hpivot step hfirst hstep hmiddle
    obtain ⟨name, hname, -⟩ := runStep_wrote hstep
    rw [names, List.filterMap_cons_some hname, List.nodup_cons] at hnodup
    intro row hrow
    refine List.forall_mem_cons.mpr ⟨?_, ?_⟩
    · obtain ⟨origin, horigin, hloaded⟩ := exists_of_forall₂_of_mem (runSteps_loaded hrest) hrow
      refine (hshown origin horigin).congr fun other hother => hloaded.get?_eq ?_
      obtain rfl := Option.some.inj (hname.symm.trans hother)
      exact hnodup.1
    · exact shows_runSteps hall hpivot rest hnodup.2 hlater hrest hlog row hrow
  termination_by structural steps => steps

end

/-- A load keeps the rows in their number and order. On every row that is left, at whatever depth,
the fields beside the loaded relations and the computed fields are those that the database returned,
and each relation that is loaded there has its array or its row. The alias of the pivot key is gone
from all related rows, but for a relation or a computed field of this name. -/
theorem rows_finished {root : Entity} (hroot : root.Apart) (hall : schema.Apart)
    (hpivot : db.ProjectsPivot)
    (h : Yields (Load.run db schema loads root rows) sent out sent') :
    List.Forall₂ (Finished db schema sent' root (ofLoads schema loads root)) rows out ∧
    ∀ relation target load steps row, Attached db schema sent' relation target load steps row →
      pivotAlias ∉ names steps → target.isComputed pivotAlias = false →
        row.get? pivotAlias = none := by
  constructor
  · refine finished_level (fun name hname => hroot name (isRelation_of_mem_names hname))
      (fun hsteps => ?_) h
    exact shows_runSteps hall hpivot _ (nodup_names_build ..) (fun _ hstep => hstep) hsteps
      (List.prefix_refl _)
  · rintro relation target load steps row ⟨keys, hreturned, kept, -⟩ hnames hcomputed
    simp [kept pivotAlias hnames hcomputed]

/-! ### Members of groups, and posts with a field named like the alias -/

def groupRelation : Relation := .belongsToMany "groups" "memberships" "member_id" "group_id"

def memberEntity : Entity :=
  (Entity.ofTable "members" "members").addRelation "groups" groupRelation

def memberSchema : Schema :=
  (Schema.empty.add memberEntity).add (Entity.ofTable "groups" "groups")

def memberDatabase : Database := fun sent =>
  match sent.getLast? with
  | some (.select s) =>
    if .labelled ⟨"memberships", "member_id"⟩ pivotAlias ∈ s.items then
      .rows [[("__pivot", .ofNat 1), ("id", .ofNat 7)]]
    else .rows []
  | _ => .rows []

def groupStatement : Statement :=
  .ofRelation groupRelation (Entity.ofTable "groups" "groups") .empty [.int 1]

def groupedMember : Row :=
  [("groups", .array [.object [("id", .ofNat 7)]]), ("id", .ofNat 1)]

theorem projectsPivot_memberDatabase : memberDatabase.ProjectsPivot := by
  intro sent s rows h
  unfold memberDatabase at h
  rw [List.getLast?_concat] at h
  dsimp only at h
  split at h
  · next hlabelled => exact .inl ⟨_, hlabelled⟩
  · obtain rfl := Answer.rows.inj h
    exact .inr (by simp)

theorem apart_memberSchema : memberSchema.Apart := by
  intro name entity hentity
  rcases eq_or_entity?_of_add hentity with rfl | hentity
  · exact fun _ _ => rfl
  rcases eq_or_entity?_of_add hentity with rfl | hentity
  · exact fun _ _ => rfl
  · cases hentity

theorem rows_finished_of_members :
    ∃ sent', Yields (Load.run memberDatabase memberSchema [("groups", .empty)] memberEntity
        [[("id", .ofNat 1)]]) [] [groupedMember] sent' ∧
      List.Forall₂ (Finished memberDatabase memberSchema sent' memberEntity
        (ofLoads memberSchema [("groups", .empty)] memberEntity)) [[("id", .ofNat 1)]]
        [groupedMember] := by
  have hyields : Yields (Load.run memberDatabase memberSchema [("groups", .empty)] memberEntity
      [[("id", .ofNat 1)]]) [] [groupedMember] [groupStatement] := by
    unfold Yields
    cbv
  exact ⟨_, hyields, (rows_finished (fun _ _ => rfl) apart_memberSchema
    projectsPivot_memberDatabase hyields).1⟩

def pivotedEntity : Entity :=
  { Entity.ofTable "posts" "posts" with computed := [(pivotAlias, fun _ => .ofNat 5)] }

def pivotedSchema : Schema := (Schema.empty.add authorEntity).add pivotedEntity

theorem projectsPivot_postDatabase : postDatabase.ProjectsPivot := by
  intro sent s rows h
  right
  unfold postDatabase Database.replaying at h
  cases hanswer : [Answer.rows [authoredPost]][(sent ++ [Statement.select s]).length - 1]? with
  | none =>
    rw [hanswer, Option.getD_none] at h
    cases h
  | some answer =>
    rw [hanswer, Option.getD_some] at h
    obtain rfl := List.mem_singleton.mp (List.mem_of_getElem? hanswer)
    obtain rfl := Answer.rows.inj h
    intro row hrow
    obtain rfl := List.mem_singleton.mp hrow
    rfl

theorem apart_pivotedSchema : pivotedSchema.Apart := by
  intro name entity hentity
  rcases eq_or_entity?_of_add hentity with rfl | hentity
  · intro name hrelation
    cases hrelation
  rcases eq_or_entity?_of_add hentity with rfl | hentity
  · exact fun _ _ => rfl
  · cases hentity

def pivotedPost : Row := [("__pivot", .ofNat 5), ("id", .ofNat 10), ("user_id", .ofNat 1)]

/-- Nothing is projected under the alias, and yet it is a key of the post that is attached. -/
theorem computed_alias_stays :
    authorEntity.Apart ∧ pivotedSchema.Apart ∧ postDatabase.ProjectsPivot ∧
      Yields (Load.run postDatabase pivotedSchema [("posts", .empty)] authorEntity authorRows) []
        [[("id", .ofNat 1), ("posts", .array [.object pivotedPost])],
          [("id", .ofNat 2), ("posts", .array [])]] [postStatement] ∧
      pivotedPost.get? pivotAlias = some (.ofNat 5) := by
  refine ⟨fun _ _ => rfl, apart_pivotedSchema, projectsPivot_postDatabase, ?_, rfl⟩
  unfold Yields
  cbv

end Load

end RestQuery
