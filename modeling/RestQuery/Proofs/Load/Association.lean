import Mathlib
import RestQuery.Proofs.Load.Run

/-!
# Which related rows a row receives

Related rows are grouped when they are finished: their own relations are loaded and their fields
computed. A relation or a computed field with the name of the column that ties them takes its place,
and so does, on their parents, a relation that is loaded before. Then the database no longer decides
to whom a row belongs. Everything else that is loaded, on either side, changes nothing.
-/

namespace RestQuery

open Stitch LoadStep

theorem Entity.get?_compute {entity : Entity} {column : String}
    (h : entity.isComputed column = false) (row : Row) :
    (entity.compute row).get? column = row.get? column := by
  unfold compute
  unfold isComputed at h
  generalize entity.computed = fields at h ⊢
  induction fields generalizing row with
  | nil => rfl
  | cons field fields ih =>
    obtain ⟨name, f⟩ := field
    simp only [List.any_cons, Bool.or_eq_false_iff, beq_eq_false_iff_ne] at h
    rw [List.foldl_cons, ih _ h.2]
    exact Dict.get?_insert_of_ne row (f row) (Ne.symm h.1)

/-! ### Keys of a level -/

theorem exists_keyValue {value : Json} {key : String} (h : keyText value = some key) :
    ∃ bound, keyValue value = some bound := by
  cases value with
  | number n => cases n <;> exact ⟨_, rfl⟩
  | text s => exact ⟨_, rfl⟩
  | bool b => exact ⟨_, rfl⟩
  | _ => cases h

theorem distinctFrom_nil_eq_nil_iff {values : List Json} :
    distinctFrom [] values = [] ↔ ∀ value ∈ values, keyText value = none := by
  induction values with
  | nil => simp [distinctFrom]
  | cons value values ih =>
    cases hkey : keyText value with
    | none => simp [distinctFrom, hkey, ih]
    | some key =>
      obtain ⟨bound, hbound⟩ := exists_keyValue hkey
      simp [distinctFrom, hkey, hbound]

theorem distinctKeys_eq_nil_iff {column : String} {rows : List Row} :
    distinctKeys column rows = [] ↔ ∀ row ∈ rows, keyAt column row = none := by
  rw [distinctKeys, distinctFrom_nil_eq_nil_iff]
  constructor
  · intro h row hrow
    cases hget : row.get? column with
    | none => rw [keyAt, hget, Option.bind_none]
    | some value =>
      have hvalue : value ∈ rows.filterMap (·.get? column) :=
        List.mem_filterMap.mpr ⟨row, hrow, hget⟩
      rw [keyAt, hget, Option.bind_some, h value hvalue]
  · intro h value hvalue
    obtain ⟨row, hrow, hget⟩ := List.mem_filterMap.mp hvalue
    have hkey := h row hrow
    rwa [keyAt, hget, Option.bind_some] at hkey

theorem distinctKeys_congr {column : String} {rows rows' : List Row}
    (h : List.Forall₂ (fun row row' => row'.get? column = row.get? column) rows rows') :
    distinctKeys column rows' = distinctKeys column rows := by
  unfold distinctKeys
  congr 1
  induction h with
  | nil => rfl
  | cons hrow _ ih => rw [List.filterMap_cons, List.filterMap_cons, hrow, ih]

namespace Load

variable {db : Database} {schema : Schema} {sent sent' : List Sql.Statement} {rows out : List Row}

theorem runSteps_append {before after : List LoadStep} :
    Yields (runSteps db schema (before ++ after) rows) sent out sent' ↔
      ∃ middle sent₁, Yields (runSteps db schema before rows) sent middle sent₁ ∧
        Yields (runSteps db schema after middle) sent₁ out sent' := by
  induction before generalizing rows sent with
  | nil => simp [runSteps]
  | cons step before ih =>
    rw [List.cons_append, runSteps, runSteps, yields_bind]
    simp only [ih, yields_bind]
    constructor
    · rintro ⟨first, sent₀, hstep, middle, sent₁, hbefore, hafter⟩
      exact ⟨middle, sent₁, ⟨first, sent₀, hstep, hbefore⟩, hafter⟩
    · rintro ⟨middle, sent₁, ⟨first, sent₀, hstep, hbefore⟩, hafter⟩
      exact ⟨first, sent₀, hstep, middle, sent₁, hbefore, hafter⟩

/-- The keys that a step asks for when other steps have written to its rows. -/
def askedKeys (before : List LoadStep) (column : String) (rows : List Row) : List Sql.Value :=
  if column ∈ names before then [] else distinctKeys column rows

theorem distinctKeys_loaded {before : List LoadStep} {middle : List Row}
    (h : List.Forall₂ (Loaded before) rows middle) (column : String) :
    distinctKeys column middle = askedKeys before column rows := by
  unfold askedKeys
  split
  · next hmem =>
    rw [distinctKeys_eq_nil_iff]
    intro row hrow
    obtain ⟨row', -, hloaded⟩ := exists_of_forall₂_of_mem h hrow
    rw [hloaded.keyAt_eq, keyAfter, if_pos hmem]
  · next hmem => exact distinctKeys_congr (h.imp fun _ _ hloaded => hloaded.get?_eq hmem)

theorem askedKeys_eq_iff {before : List LoadStep} {column : String} :
    askedKeys before column rows = distinctKeys column rows ↔
      (column ∈ names before → ∀ row ∈ rows, keyAt column row = none) := by
  unfold askedKeys
  split
  · next hmem =>
    rw [eq_comm, distinctKeys_eq_nil_iff]
    simp [hmem]
  · next hmem => simp [hmem]

/-- The key of a finished row, unless it is computed. -/
theorem level_keys {entity : Entity} {steps : List LoadStep}
    (h : Yields (level entity (runSteps db schema steps) rows) sent out sent') :
    List.Forall₂ (fun row row' => ∀ column, entity.isComputed column = false →
      keyAt column row' = keyAfter steps column row) rows out := by
  unfold level at h
  split at h
  · next hempty =>
    obtain ⟨rfl, -⟩ := yields_pure.mp h
    rw [List.isEmpty_iff.mp hempty]
    exact .nil
  · obtain ⟨loaded, middle, hsteps, h⟩ := yields_bind.mp h
    obtain ⟨rfl, -⟩ := yields_pure.mp h
    rw [List.forall₂_map_right_iff]
    refine (runSteps_loaded hsteps).imp fun row row' hloaded column hc => ?_
    rw [keyAt, Entity.get?_compute hc, ← keyAt, hloaded.keyAt_eq]

/-- The rows that are returned for some keys; without keys nothing is sent. -/
def Fetched (db : Database) (relation : Relation) (target : Entity) (load : EagerLoad)
    (keys : List Sql.Value) (sent : List Sql.Statement) (children : List Row)
    (sent' : List Sql.Statement) : Prop :=
  if keys = [] then children = [] ∧ sent' = sent
  else sent' = sent ++ [.ofRelation relation target load keys] ∧ db sent' = .rows children

theorem runStep_related {path name parentColumn : String} {relation : Relation} {target : Entity}
    {load : EagerLoad} {steps : List LoadStep}
    (h : Yields (runStep db schema (.related path name parentColumn relation target load steps)
      rows) sent out sent') :
    ∃ children middle finished,
      Fetched db relation target load (distinctKeys parentColumn rows) sent children middle ∧
      Yields (level target (runSteps db schema steps) children) middle finished sent' ∧
      out = attach rows finished name parentColumn relation.relatedJoinColumn
        relation.kind.isToMany := by
  rw [runStep] at h
  unfold Fetched
  split at h
  · next hempty =>
    obtain ⟨rfl, rfl⟩ := yields_pure.mp h
    refine ⟨[], sent, [], by simp [List.isEmpty_iff.mp hempty], yields_pure.mpr ⟨rfl, rfl⟩, ?_⟩
    simp [attach_eq, matching]
  · next hkeys =>
    obtain ⟨children, middle, hask, h⟩ := yields_bind.mp h
    obtain ⟨finished, middle', hlevel, h⟩ := yields_bind.mp h
    obtain ⟨rfl, rfl⟩ := yields_pure.mp h
    refine ⟨children, middle, finished, ?_, hlevel, rfl⟩
    rw [if_neg (by simpa using hkeys)]
    exact yields_ask.mp hask

/-! ### Rows that are attached, and rows that belong together -/

/-- The key of a related row when it is grouped, from the row as it was returned and as it is when
finished. -/
def groupingKey (target : Entity) (steps : List LoadStep) (column : String) (pair : Row × Row) :
    Option String :=
  if target.isComputed column then keyAt column pair.2 else keyAfter steps column pair.1

/-- The related rows, as returned and as finished, that a row receives. -/
def attachedTo (parentColumn column : String) (target : Entity) (steps : List LoadStep)
    (related : List (Row × Row)) (row : Row) : List (Row × Row) :=
  related.filter fun pair =>
    sameKey (keyAt parentColumn row) (groupingKey target steps column pair)

def belongingTo (parentColumn column : String) (related : List (Row × Row)) (row : Row) :
    List (Row × Row) :=
  related.filter fun pair => sameKey (keyAt parentColumn row) (keyAt column pair.1)

theorem matching_finished {target : Entity} {steps : List LoadStep} {children finished : List Row}
    (h : Yields (level target (runSteps db schema steps) children) sent finished sent')
    (column : String) (key : Option String) :
    matching column key finished = ((children.zip finished).filter fun pair =>
      sameKey key (groupingKey target steps column pair)).map Prod.snd := by
  have hkeys : List.Forall₂ (fun child row => keyAt column row =
      groupingKey target steps column (child, row)) children finished := by
    refine (level_keys h).imp fun child row hkey => ?_
    unfold groupingKey
    split
    · rfl
    · next hc => exact hkey column (by simpa using hc)
  clear h
  unfold matching
  induction hkeys with
  | nil => rfl
  | cons hkey _ ih =>
    rw [List.zip_cons_cons, List.filter_cons, List.filter_cons, hkey, ih]
    split <;> rfl

theorem filter_eq_filter_iff {α : Type} {p q : α → Bool} {l : List α} :
    l.filter p = l.filter q ↔ ∀ a ∈ l, p a = q a := by
  refine ⟨fun h a ha => ?_, List.filter_congr⟩
  have hmem : a ∈ l.filter p ↔ a ∈ l.filter q := by rw [h]
  simp only [List.mem_filter, ha, true_and] at hmem
  exact Bool.eq_iff_iff.mpr hmem

/-- What was written to a related row leaves it to the row that it belongs to: a computed key ties
it there as well, and no relation stands in the place of the key that does. -/
def KeepsTie (parentColumn column : String) (target : Entity) (steps : List LoadStep) (row : Row)
    (pair : Row × Row) : Prop :=
  (target.isComputed column = true →
    sameKey (keyAt parentColumn row) (keyAt column pair.2) =
      sameKey (keyAt parentColumn row) (keyAt column pair.1)) ∧
  (target.isComputed column = false → column ∈ names steps →
    sameKey (keyAt parentColumn row) (keyAt column pair.1) = false)

theorem attachedTo_eq_iff {parentColumn column : String} {target : Entity} {steps : List LoadStep}
    {related : List (Row × Row)} {row : Row} :
    attachedTo parentColumn column target steps related row =
        belongingTo parentColumn column related row ↔
      ∀ pair ∈ related, KeepsTie parentColumn column target steps row pair := by
  unfold attachedTo belongingTo groupingKey keyAfter KeepsTie
  rw [filter_eq_filter_iff]
  refine forall₂_congr fun pair _ => ?_
  by_cases hc : target.isComputed column = true
  · simp [hc]
  · rw [Bool.not_eq_true] at hc
    by_cases hmem : column ∈ names steps
    · simp only [hc, hmem, sameKey_none, Bool.false_eq_true, if_true, if_false, false_implies,
        true_implies, true_and]
      exact eq_comm
    · simp [hc, hmem]

theorem Fetched.eq_nil {relation : Relation} {target : Entity} {load : EagerLoad}
    {children : List Row} (h : Fetched db relation target load [] sent children sent') :
    children = [] := by
  simp only [Fetched, if_true] at h
  exact h.1

/-- What a step attaches to the rows of its level, whatever the steps around it write. -/
theorem runSteps_attached {before after steps : List LoadStep} {path name parentColumn : String}
    {relation : Relation} {target : Entity} {load : EagerLoad}
    (h : Yields (runSteps db schema
      (before ++ .related path name parentColumn relation target load steps :: after) rows)
        sent out sent') (hname : name ∉ names after) :
    ∃ start children middle finished finish,
      Fetched db relation target load (askedKeys before parentColumn rows) start children middle ∧
      Yields (level target (runSteps db schema steps) children) middle finished finish ∧
      List.Forall₂ (fun row row' => row'.get? name = some (shown relation.kind.isToMany
        ((attachedTo parentColumn relation.relatedJoinColumn target steps (children.zip finished)
          row).map fun pair => .object (detached relation.relatedJoinColumn pair.2))))
        rows out := by
  obtain ⟨rows₁, start, hbefore, hrest⟩ := runSteps_append.mp h
  rw [runSteps] at hrest
  obtain ⟨rows₂, finish, hstep, hafter⟩ := yields_bind.mp hrest
  obtain ⟨children, middle, finished, hfetched, hlevel, rfl⟩ := runStep_related hstep
  have hloaded := runSteps_loaded hbefore
  rw [distinctKeys_loaded hloaded] at hfetched
  refine ⟨start, children, middle, finished, finish, hfetched, hlevel, ?_⟩
  have hattached : ∀ row row₁, Loaded before row row₁ →
      matching relation.relatedJoinColumn (keyAt parentColumn row₁) finished =
        (attachedTo parentColumn relation.relatedJoinColumn target steps (children.zip finished)
          row).map Prod.snd := by
    intro row row₁ hrow
    rw [matching_finished hlevel, hrow.keyAt_eq, keyAfter]
    by_cases hmem : parentColumn ∈ names before
    · rw [askedKeys, if_pos hmem] at hfetched
      simp [hfetched.eq_nil, attachedTo]
    · rw [if_neg hmem, attachedTo]
  rw [attach_eq] at hafter
  have hkept := runSteps_loaded hafter
  rw [List.forall₂_map_left_iff] at hkept
  refine forall₂_trans hloaded hkept fun row row₁ row' hrow hrow' => ?_
  rw [hrow'.get?_eq hname, Dict.get?_insert_self, hattached row row₁ hrow, List.map_map]
  rfl

/-- On every level of a load, a row receives from each relation the related rows that `attachedTo`
lists, in the order in which they were returned. All returned keys are asked for, and what is
attached are the rows that belong to the row by the returned keys, exactly if no relation that is
loaded before stands in the place of a key of the level's rows and what is written to the related
rows keeps their ties. The rest of the level has no part in this, except that a computed field may
take the place of what is attached. -/
theorem level_attached {loads : Dict EagerLoad} {depth : Nat} {entity : Entity} {above : String}
    {pending : List String}
    (h : Yields (level entity (runSteps db schema (build schema loads depth entity above pending))
      rows) sent out sent')
    {before after steps : List LoadStep} {path name parentColumn : String} {relation : Relation}
    {target : Entity} {load : EagerLoad}
    (hsteps : build schema loads depth entity above pending =
      before ++ .related path name parentColumn relation target load steps :: after) :
    parentColumn = relation.parentJoinColumn entity.primaryKey ∧
    (∃ below, steps = build schema loads (depth + 1) target (path ++ ".") below) ∧
    ∃ start children middle finished finish,
      Fetched db relation target load (askedKeys before parentColumn rows) start children middle ∧
      Yields (level target (runSteps db schema steps) children) middle finished finish ∧
      (entity.isComputed name = false →
        List.Forall₂ (fun row row' => row'.get? name = some (shown relation.kind.isToMany
          ((attachedTo parentColumn relation.relatedJoinColumn target steps (children.zip finished)
            row).map fun pair => .object (detached relation.relatedJoinColumn pair.2)))) rows out) ∧
      ((askedKeys before parentColumn rows = distinctKeys parentColumn rows ∧ ∀ row ∈ rows,
          attachedTo parentColumn relation.relatedJoinColumn target steps (children.zip finished)
              row =
            belongingTo parentColumn relation.relatedJoinColumn (children.zip finished) row) ↔
        (parentColumn ∈ names before → ∀ row ∈ rows, keyAt parentColumn row = none) ∧
          ∀ row ∈ rows, ∀ pair ∈ children.zip finished,
            KeepsTie parentColumn relation.relatedJoinColumn target steps row pair) := by
  have hmem : LoadStep.related path name parentColumn relation target load steps ∈
      build schema loads depth entity above pending := by simp [hsteps]
  have hnodup : (names (build schema loads depth entity above pending)).Nodup :=
    nodup_names_build depth entity above pending
  rw [hsteps] at h hnodup
  have hname : name ∉ names after := by
    simp only [names, List.filterMap_append, List.filterMap_cons, name?] at hnodup
    exact (List.nodup_cons.mp (List.nodup_append.mp hnodup).2.1).1
  obtain ⟨hparent, hbelow⟩ := related_of_mem_build hmem
  have htied : ∀ pairs : List (Row × Row),
      (askedKeys before parentColumn rows = distinctKeys parentColumn rows ∧ ∀ row ∈ rows,
          attachedTo parentColumn relation.relatedJoinColumn target steps pairs row =
            belongingTo parentColumn relation.relatedJoinColumn pairs row) ↔
        (parentColumn ∈ names before → ∀ row ∈ rows, keyAt parentColumn row = none) ∧
          ∀ row ∈ rows, ∀ pair ∈ pairs,
            KeepsTie parentColumn relation.relatedJoinColumn target steps row pair := fun _ =>
    and_congr askedKeys_eq_iff (forall₂_congr fun row _ => attachedTo_eq_iff)
  refine ⟨hparent, hbelow, ?_⟩
  unfold level at h
  split at h
  · next hempty =>
    obtain rfl := List.isEmpty_iff.mp hempty
    obtain ⟨rfl, rfl⟩ := yields_pure.mp h
    have hasked : askedKeys before parentColumn [] = [] := ite_self []
    refine ⟨sent, [], sent, [], sent, ?_, yields_pure.mpr ⟨rfl, rfl⟩, fun _ => .nil, htied _⟩
    rw [hasked]
    exact ⟨rfl, rfl⟩
  · obtain ⟨loaded, sent₁, hrun, h⟩ := yields_bind.mp h
    obtain ⟨rfl, -⟩ := yields_pure.mp h
    obtain ⟨start, children, middle, finished, finish, hfetched, hlevel, hattached⟩ :=
      runSteps_attached hrun hname
    refine ⟨start, children, middle, finished, finish, hfetched, hlevel, fun hc => ?_, htied _⟩
    rw [List.forall₂_map_right_iff]
    exact hattached.imp fun row row' hrow => by rw [Entity.get?_compute hc, hrow]

/-! ### A post with a computed author -/

def authorEntity : Entity :=
  (Entity.ofTable "users" "users").addRelation "posts" (.hasMany "posts" "user_id" "id")

/-- Posts that all show the second user as their author. -/
def reassignedEntity : Entity :=
  { Entity.ofTable "posts" "posts" with computed := [("user_id", fun _ => .ofNat 2)] }

def authorSchema : Schema := (Schema.empty.add authorEntity).add reassignedEntity

def authorRows : List Row := [[("id", .ofNat 1)], [("id", .ofNat 2)]]

/-- A post of the first user. -/
def authoredPost : Row := [("id", .ofNat 10), ("user_id", .ofNat 1)]

def reassignedPost : Row := [("id", .ofNat 10), ("user_id", .ofNat 2)]

def loadedAuthors : List Row :=
  [[("id", .ofNat 1), ("posts", .array [])],
    [("id", .ofNat 2), ("posts", .array [.object reassignedPost])]]

def postDatabase : Database := .replaying [.rows [authoredPost]]

def postStep : LoadStep :=
  .related "posts" "posts" "id" (.hasMany "posts" "user_id" "id") reassignedEntity .empty []

def postStatement : Sql.Statement :=
  .ofRelation (.hasMany "posts" "user_id" "id") reassignedEntity .empty [.int 1, .int 2]

theorem build_authorSchema :
    build authorSchema [("posts", .empty)] 0 authorEntity "" ["posts"] = [postStep] := by
  cbv

theorem yields_authorRows :
    Yields (level authorEntity (runSteps postDatabase authorSchema
      (build authorSchema [("posts", .empty)] 0 authorEntity "" ["posts"])) authorRows) []
      loadedAuthors [postStatement] := by
  unfold Yields
  cbv

theorem level_attached_posts :
    ∃ start children middle finished finish,
      Fetched postDatabase (.hasMany "posts" "user_id" "id") reassignedEntity .empty
        (distinctKeys "id" authorRows) start children middle ∧
      Yields (level reassignedEntity (runSteps postDatabase authorSchema []) children) middle
        finished finish ∧
      List.Forall₂ (fun row row' => row'.get? "posts" = some (shown true
        ((attachedTo "id" "user_id" reassignedEntity [] (children.zip finished) row).map
          fun pair => .object pair.2))) authorRows loadedAuthors := by
  have hsteps : build authorSchema [("posts", .empty)] 0 authorEntity "" ["posts"] =
      [] ++ postStep :: [] := build_authorSchema
  obtain ⟨-, -, start, children, middle, finished, finish, hfetched, hlevel, hattached, -⟩ :=
    level_attached yields_authorRows hsteps
  exact ⟨start, children, middle, finished, finish, hfetched, hlevel, hattached rfl⟩

/-- The returned post belongs to the first user and is attached to the second. -/
theorem post_attached_to_other_author :
    ∃ first second,
      Yields (Load.run postDatabase authorSchema [("posts", .empty)] authorEntity authorRows) []
        [first, second] [postStatement] ∧
      postDatabase [postStatement] = .rows [authoredPost] ∧
      authorRows.map (fun row => sameKey (keyAt "id" row) (keyAt "user_id" authoredPost)) =
        [true, false] ∧
      first.get? "posts" = some (.array []) ∧
      second.get? "posts" = some (.array [.object reassignedPost]) :=
  ⟨_, _, yields_authorRows, rfl, by decide +kernel, rfl, rfl⟩

end Load

end RestQuery
