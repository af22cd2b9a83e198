import Mathlib.Data.List.Sublists
import RestQuery.Proofs.Expansion.Exact
import RestQuery.Proofs.Load.Owners

/-!
# Loading row by row

Where a database answers from tables, and no relation or computed field takes the place of a column
that ties rows, the load of a list puts into each row what `joinSteps` says, and so does the load of
the row alone. What a row shows does not depend on the rows around it.
-/

namespace RestQuery

open LoadStep Stitch Schema

/-- A relation or a computed field of the entity has the name of a column. -/
def Entity.Shadows (entity : Entity) (column : String) : Prop :=
  entity.isRelation column = true ∨ entity.isComputed column = true

instance (entity : Entity) (column : String) : Decidable (entity.Shadows column) :=
  inferInstanceAs (Decidable (_ ∨ _))

/-- The columns that tie the rows of an entity to those of its relations are shadowed on neither
side. -/
structure Schema.Unshadowed (schema : Schema) (entity : Entity) : Prop where
  parent : ∀ {name relation}, entity.relation? name = some relation →
    ¬ entity.Shadows (relation.parentJoinColumn entity.primaryKey)
  related : ∀ {name relation target}, entity.relation? name = some relation →
    schema.loadsTo entity relation = some target → ¬ target.Shadows relation.relatedJoinColumn
  owner : ∀ {name relation typeValue target}, entity.relation? name = some relation →
    relation.kind = .morphTo → schema.morph? typeValue = some target →
    ¬ target.Shadows relation.localKey

namespace Load

section Related

variable {db : Database} {schema : Schema} {relation : Relation} {target : Entity}
  {load : EagerLoad} {path name parentColumn : String} {steps : List LoadStep} {rows : List Row}

theorem yields_runStep_related {sent middle sent' : List Sql.Statement}
    {children finished : List Row}
    (hfetched : Fetched db relation target load (distinctKeys parentColumn rows) sent children
      middle)
    (hlevel : Yields (level target (runSteps db schema steps) children) middle finished sent') :
    Yields (runStep db schema (.related path name parentColumn relation target load steps) rows)
      sent (attach rows finished name parentColumn relation.relatedJoinColumn
        relation.kind.isToMany) sent' := by
  rw [runStep]
  unfold Fetched at hfetched
  split at hfetched
  · next hkeys =>
    obtain ⟨rfl, rfl⟩ := hfetched
    obtain ⟨rfl, rfl⟩ := yields_pure.mp hlevel
    rw [if_pos (by simp [hkeys])]
    exact yields_pure.mpr ⟨by simp [attach_eq, matching], rfl⟩
  · next hkeys =>
    rw [if_neg (by simpa using hkeys)]
    exact yields_bind.mpr ⟨_, _, yields_ask.mpr hfetched,
      yields_bind.mpr ⟨_, _, hlevel, yields_pure.mpr ⟨rfl, rfl⟩⟩⟩

theorem attach_askedFor {column own : String} {f : Row → Row}
    (hf : ∀ row, (f row).get? own = row.get? own) (table : List Row) (toMany : Bool) :
    attach rows ((askedFor column own rows table).map f) name column own toMany =
      rows.map (joinRelated name column own toMany table f) := by
  rw [attach_eq]
  refine List.map_congr_left fun row hrow => ?_
  rw [matching_map hf, matching_askedFor hrow, List.map_map]
  rfl

theorem rowwise_related {level table : List Row} {f : Row → Row}
    (hanswers : AnswersFrom db (.ofRelation relation target load) parentColumn
      relation.relatedJoinColumn level table)
    (hrows : Drawn (SameAt parentColumn) level rows)
    (hbelow : ∀ children : List Row, children.Sublist table →
      Rowwise (Load.level target (runSteps db schema steps)) f children)
    (hf : ∀ row, (f row).get? relation.relatedJoinColumn = row.get? relation.relatedJoinColumn) :
    Rowwise (runStep db schema (.related path name parentColumn relation target load steps))
      (joinRelated name parentColumn relation.relatedJoinColumn relation.kind.isToMany table f)
      rows := by
  intro sent out sent' hyields
  obtain ⟨children, middle, finished, hfetched, hlevel, rfl⟩ := runStep_related hyields
  obtain ⟨_, hanswer⟩ := hanswers.fetched hrows sent
  obtain rfl := hfetched.unique hanswer
  obtain ⟨rfl, hparts⟩ := hbelow _ List.filter_sublist hlevel
  refine ⟨attach_askedFor hf table _, fun part hpart start => ?_⟩
  obtain ⟨middle', hanswer'⟩ := hanswers.fetched (hrows.sublist hpart) start
  obtain ⟨finish, hlevel'⟩ := hparts _ (askedFor_sublist hpart table) middle'
  rw [← attach_askedFor hf]
  exact ⟨finish, yields_runStep_related hanswer' hlevel'⟩

end Related

/-! ### All steps -/

section Steps

variable {db : Database} {schema : Schema} {tables : Tables}

theorem rowwise_runSteps {level rows : List Row} {steps : List LoadStep}
    (hsteps : ∀ step ∈ steps, ∀ rows, Drawn (Finds step) level rows →
      Rowwise (runStep db schema step) (joinStep schema tables step) rows)
    (hnames : ∀ step ∈ steps, ∀ column, step.joinColumn? = some column → column ∉ names steps)
    (hrows : Drawn (fun row row' => ∀ step ∈ steps, Finds step row row') level rows) :
    Rowwise (runSteps db schema steps) (joinSteps schema tables steps) rows := by
  induction steps generalizing rows with
  | nil =>
    refine rowwise_of_forall fun part _ start => ⟨start, ?_⟩
    rw [runSteps]
    refine yields_pure.mpr ⟨?_, rfl⟩
    simp [joinSteps]
  | cons step steps ih =>
    have hfirst : Rowwise (runStep db schema step) (joinStep schema tables step) rows :=
      hsteps step (List.mem_cons_self ..) rows
        (hrows.imp fun row row' hfinds => hfinds step (List.mem_cons_self ..))
    -- no column by which a later step ties rows is written by this one
    have hkept : Drawn (fun row row' => ∀ later ∈ steps, Finds later row row') level
        (rows.map (joinStep schema tables step)) := by
      refine hrows.map fun row row' hfinds later hlater => ?_
      refine (hfinds later (List.mem_cons_of_mem step hlater)).joinStep fun column hc hname => ?_
      exact hnames later (List.mem_cons_of_mem step hlater) column hc (by simp [names, hname])
    have hrest : Rowwise (runSteps db schema steps) (joinSteps schema tables steps)
        (rows.map (joinStep schema tables step)) := by
      refine ih (fun later hlater => hsteps later (List.mem_cons_of_mem step hlater)) ?_ hkept
      intro later hlater column hc hmem
      refine hnames later (List.mem_cons_of_mem step hlater) column hc ?_
      obtain ⟨writer, hwriter, hname⟩ := List.mem_filterMap.mp hmem
      exact List.mem_filterMap.mpr ⟨writer, List.mem_cons_of_mem step hwriter, hname⟩
    have hload : runSteps db schema (step :: steps) =
        fun rows => runStep db schema step rows >>= runSteps db schema steps := by
      funext rows
      rw [runSteps]
    have hjoin : joinSteps schema tables (step :: steps) =
        joinSteps schema tables steps ∘ joinStep schema tables step := by
      funext row
      rw [joinSteps, Function.comp_apply]
    rw [hload, hjoin]
    exact hfirst.comp hrest

theorem relation_of_mem_build {loads : Dict EagerLoad} {depth : Nat} {entity target : Entity}
    {above path name parentColumn : String} {pending : List String} {relation : Relation}
    {load : EagerLoad} {steps : List LoadStep}
    (h : .related path name parentColumn relation target load steps ∈
      build schema loads depth entity above pending) :
    entity.relation? name = some relation ∧ schema.loadsTo entity relation = some target := by
  obtain ⟨_, -, hmade⟩ := mem_build_iff.mp h
  cases hmade with
  | related hrel htarget => exact ⟨hrel, htarget⟩

/-- Where no relation stands in the place of a column that ties rows, no step of a level writes a
column by which another one ties them. -/
theorem notMem_names_of_unshadowed {loads : Dict EagerLoad} {depth : Nat} {entity : Entity}
    {above : String} {pending : List String} (h : schema.Unshadowed entity) {step : LoadStep}
    (hstep : step ∈ build schema loads depth entity above pending) {column : String}
    (hcolumn : step.joinColumn? = some column) :
    column ∉ names (build schema loads depth entity above pending) := by
  have hshadows : ¬ entity.Shadows column := by
    rcases mem_build hstep with ⟨path, failure, rfl⟩ | ⟨name, relation, hrel, hloads⟩
    · cases hcolumn
    · obtain rfl := Option.some.inj (hloads.joinColumn?_eq.symm.trans hcolumn)
      exact h.parent hrel
  exact fun hmem => hshadows (Or.inl (isRelation_of_mem_names hmem))

/-- Each step works row by row on the rows of its level, whatever was written to them before. -/
theorem rowwise_runStep (hall : ∀ {name entity}, schema.entity? name = some entity →
      schema.Unshadowed entity) {loads : Dict EagerLoad} {level : List Row} {step : LoadStep}
    (hanswered : Answered db schema tables level step) {depth : Nat} {entity : Entity}
    {above : String} {pending : List String} (hentity : schema.Unshadowed entity)
    (hstep : step ∈ build schema loads depth entity above pending) {rows : List Row}
    (hrows : Drawn (Finds step) level rows) :
    Rowwise (runStep db schema step) (joinStep schema tables step) rows := by
  induction hanswered generalizing depth entity above pending rows with
  | fail level path failure =>
    intro sent out sent' hyields
    rw [runStep] at hyields
    exact absurd hyields not_yields_throw
  | @owner level path name typeColumn relation load hanswers =>
    obtain ⟨_, -, hmade⟩ := mem_build_iff.mp hstep
    cases hmade with
    | owner hrel hkind htype =>
      refine rowwise_owner hanswers ?_ (fun htarget => ?_) hrows
      · intro hname
        have hkey : relation.parentJoinColumn entity.primaryKey = name := by
          rw [← hname, Relation.parentJoinColumn, hkind]
        exact hentity.parent hrel (Or.inl (hkey ▸ isRelation_of_relation? hrel))
      · rw [← Bool.not_eq_true]
        exact fun hcomputed => hentity.owner hrel hkind htarget (Or.inr hcomputed)
  | @related level path name parentColumn relation target load steps hanswers hsteps ih =>
    obtain ⟨hrel, htarget⟩ := relation_of_mem_build hstep
    obtain ⟨-, below, hbuild⟩ := related_of_mem_build hstep
    obtain ⟨targetName, hregistered⟩ := exists_name_of_loadsTo htarget
    have hclear : schema.Unshadowed target := hall hregistered
    have hshadows := hentity.related hrel htarget
    have hnames : relation.relatedJoinColumn ∉ names steps := by
      rw [hbuild]
      exact fun hmem => hshadows (Or.inl (isRelation_of_mem_names hmem))
    have hcomputed : target.isComputed relation.relatedJoinColumn = false := by
      rw [← Bool.not_eq_true]
      exact fun hcomputed => hshadows (Or.inr hcomputed)
    have hkept : ∀ row : Row, (target.compute (joinSteps schema tables steps row)).get?
        relation.relatedJoinColumn = row.get? relation.relatedJoinColumn := fun row =>
      (Entity.get?_compute hcomputed _).trans (joinSteps_get?_of_notMem hnames row)
    have hbelow : ∀ children : List Row, children.Sublist (tables.related path) →
        Rowwise (Load.level target (runSteps db schema steps))
          (target.compute ∘ joinSteps schema tables steps) children := by
      intro children hchildren
      refine (rowwise_runSteps ?_ ?_
        (drawn_of_sublist hchildren fun row step _ => .refl step row)).level target
      · intro step hmem rows hdrawn
        exact ih step hmem hclear (hbuild ▸ hmem) hdrawn
      · intro step hmem column hc
        rw [hbuild]
        exact notMem_names_of_unshadowed hclear (hbuild ▸ hmem) hc
    have hjoin : joinStep schema tables
        (.related path name parentColumn relation target load steps) =
        joinRelated name parentColumn relation.relatedJoinColumn relation.kind.isToMany
          (tables.related path) (target.compute ∘ joinSteps schema tables steps) := by
      funext row
      rw [joinStep]
      rfl
    rw [hjoin]
    exact rowwise_related hanswers hrows hbelow hkept

/-- The load of a list of rows is the list of what is joined to each of them, and each of these is
what the load of the row alone returns. This holds where the database answers from tables, whatever
rows of a level it is asked for, and no relation or computed field has the name of a column that
ties the rows of its entity. -/
theorem run_eq_map_join {loads : Dict EagerLoad} {entity : Entity} {rows out : List Row}
    {sent sent' : List Sql.Statement} (hentity : schema.Unshadowed entity)
    (hall : ∀ {name entity}, schema.entity? name = some entity → schema.Unshadowed entity)
    (hanswered : ∀ step ∈ ofLoads schema loads entity, Answered db schema tables rows step)
    (h : Yields (Load.run db schema loads entity rows) sent out sent') :
    out = rows.map (fun row =>
      entity.compute (joinSteps schema tables (ofLoads schema loads entity) row)) ∧
    List.Forall₂ (fun row row' => ∀ start, ∃ finish,
      Yields (Load.run db schema loads entity [row]) start [row'] finish) rows out := by
  have hsteps : Rowwise (runSteps db schema (ofLoads schema loads entity))
      (joinSteps schema tables (ofLoads schema loads entity)) rows := by
    refine rowwise_runSteps ?_ ?_
      (drawn_of_sublist (List.Sublist.refl rows) fun row step _ => .refl step row)
    · intro step hstep rows hdrawn
      exact rowwise_runStep hall (hanswered step hstep) hentity hstep hdrawn
    · intro step hstep column hc
      exact notMem_names_of_unshadowed hentity hstep hc
  have hrowwise : Rowwise (Load.run db schema loads entity)
      (entity.compute ∘ joinSteps schema tables (ofLoads schema loads entity)) rows :=
    hsteps.level entity
  obtain ⟨rfl, hparts⟩ := hrowwise h
  refine ⟨rfl, ?_⟩
  rw [List.forall₂_map_right_iff, List.forall₂_same]
  exact fun row hrow start => hparts [row] (List.singleton_sublist.mpr hrow) start

end Steps

/-! ### Two authors with their books -/

section Books

open ExpandClause

/-- A database of tables that answers statements with one list of keys. -/
def storing (tables : String → List Row) : Database := fun sent =>
  match sent.getLast? with
  | some (.select ⟨_, table, _, [.leaf (.isIn ref values false)], _, _, _⟩) =>
    .rows ((tables table).filter fun row =>
      values.any fun value => (row.get? ref.column).bind keyValue == some value)
  | _ => .rows []

def writerRows : List Row := [[("id", .ofNat 1)], [("id", .ofNat 2)]]

def bookRows : List Row :=
  [[("author_id", .ofNat 1), ("id", .ofNat 10)], [("author_id", .ofNat 2), ("id", .ofNat 11)]]

def storedRows (name : String) : List Row := if name = "books" then bookRows else writerRows

def bookDatabase : Database := storing storedRows

def bookTables : Tables := ⟨storedRows, fun _ _ => []⟩

def bookLoads : Dict EagerLoad := [("books", .empty), ("books.author", .empty)]

def bookAuthorStep : LoadStep :=
  .related "books.author" "author" "author_id" (.belongsTo "authors" "author_id" "id") writerEntity
    .empty []

def bookStep : LoadStep :=
  .related "books" "books" "id" (.hasMany "books" "author_id" "id") bookEntity .empty
    [bookAuthorStep]

theorem ofLoads_bookLoads : ofLoads bookSchema bookLoads writerEntity = [bookStep] := by
  cbv

/-- A database that answers without regard to earlier statements answers from a table if it does so
for each of the sublists of a level. -/
theorem answersFrom_storing {tables : String → List Row}
    {statement : List Sql.Value → Sql.Statement} {column own : String} {level table : List Row}
    (h : ∀ rows ∈ level.sublists, distinctKeys column rows = [] ∨
      storing tables [statement (distinctKeys column rows)] =
        .rows (askedFor column own rows table)) :
    AnswersFrom (storing tables) statement column own level table := by
  intro rows hrows hkeys sent
  have hlast : storing tables (sent ++ [statement (distinctKeys column rows)]) =
      storing tables [statement (distinctKeys column rows)] := by
    unfold storing
    rw [List.getLast?_concat, List.getLast?_singleton]
  rw [hlast]
  exact (h rows (List.mem_sublists.mpr hrows)).resolve_left hkeys

theorem answered_bookStep : Answered bookDatabase bookSchema bookTables writerRows bookStep := by
  refine .related (answersFrom_storing ?_) ?_
  · have hsublists : writerRows.sublists =
        [[], [[("id", .ofNat 1)]], [[("id", .ofNat 2)]], writerRows] := rfl
    simp only [hsublists, List.forall_mem_cons]
    exact ⟨Or.inl rfl, Or.inr rfl, Or.inr rfl, Or.inr rfl, nofun⟩
  · intro step hstep
    obtain rfl := List.mem_singleton.mp hstep
    refine .related (answersFrom_storing ?_) nofun
    have hsublists : bookRows.sublists = [[], [[("author_id", .ofNat 1), ("id", .ofNat 10)]],
        [[("author_id", .ofNat 2), ("id", .ofNat 11)]], bookRows] := rfl
    change ∀ rows ∈ bookRows.sublists, _
    simp only [hsublists, List.forall_mem_cons]
    exact ⟨Or.inl rfl, Or.inr rfl, Or.inr rfl, Or.inr rfl, nofun⟩

theorem eq_of_relation?_addRelation {entityName table added name : String}
    {declared relation : Relation}
    (h : ((Entity.ofTable entityName table).addRelation added declared).relation? name =
      some relation) : relation = declared := by
  by_cases hname : name = added
  · subst hname
    simpa [Entity.relation?, Entity.addRelation, eq_comm] using h
  · simp [Entity.relation?, Entity.addRelation, Entity.ofTable, Dict.get?, hname] at h

theorem unshadowed_addRelation {schema : Schema} {entityName table added : String}
    {declared : Relation} {entity target : Entity}
    (hentity : entity = (Entity.ofTable entityName table).addRelation added declared)
    (htarget : schema.loadsTo entity declared = some target)
    (hparent : ¬ entity.Shadows (declared.parentJoinColumn entity.primaryKey))
    (hrelated : ¬ target.Shadows declared.relatedJoinColumn) (hkind : declared.kind ≠ .morphTo) :
    schema.Unshadowed entity := by
  subst hentity
  constructor
  · intro name relation hrel
    exact eq_of_relation?_addRelation hrel ▸ hparent
  · intro name relation reached hrel hreached
    obtain rfl := eq_of_relation?_addRelation hrel
    obtain rfl := Option.some.inj (htarget.symm.trans hreached)
    exact hrelated
  · intro name relation typeValue reached hrel hmorph
    obtain rfl := eq_of_relation?_addRelation hrel
    exact absurd hmorph hkind

theorem unshadowed_writerEntity : bookSchema.Unshadowed writerEntity := by
  have hbooks : bookSchema.loadsTo writerEntity (.hasMany "books" "author_id" "id") =
      some bookEntity := by cbv
  exact unshadowed_addRelation rfl hbooks (by decide) (by decide) (by decide)

theorem unshadowed_bookEntity : bookSchema.Unshadowed bookEntity := by
  have hauthor : bookSchema.loadsTo bookEntity (.belongsTo "authors" "author_id" "id") =
      some writerEntity := by cbv
  exact unshadowed_addRelation rfl hauthor (by decide) (by decide) (by decide)

/-- Every author comes with the own books, and every book with its author, also when the author is
loaded alone. -/
theorem run_eq_map_join_of_books :
    ∃ first second finish,
      Yields (Load.run bookDatabase bookSchema bookLoads writerEntity writerRows) []
        [first, second] finish ∧
      first.get? "books" = some (.array [.object [("author", .object [("id", .ofNat 1)]),
        ("author_id", .ofNat 1), ("id", .ofNat 10)]]) ∧
      ∀ start, ∃ finish, Yields (Load.run bookDatabase bookSchema bookLoads writerEntity
        [[("id", .ofNat 1)]]) start [first] finish := by
  have hyields : Yields (Load.run bookDatabase bookSchema bookLoads writerEntity writerRows) []
      (writerRows.map fun row =>
        writerEntity.compute (joinSteps bookSchema bookTables [bookStep] row))
      [.ofRelation (.hasMany "books" "author_id" "id") bookEntity .empty [.int 1, .int 2],
        .ofRelation (.belongsTo "authors" "author_id" "id") writerEntity .empty
          [.int 1, .int 2]] := by
    unfold Yields
    cbv
  have hall : ∀ {name entity}, bookSchema.entity? name = some entity →
      bookSchema.Unshadowed entity := by
    intro name entity hentity
    rcases eq_or_entity?_of_add hentity with rfl | hentity
    · exact unshadowed_bookEntity
    rcases eq_or_entity?_of_add hentity with rfl | hentity
    · exact unshadowed_writerEntity
    · cases hentity
  have hanswered : ∀ step ∈ ofLoads bookSchema bookLoads writerEntity,
      Answered bookDatabase bookSchema bookTables writerRows step := by
    rw [ofLoads_bookLoads]
    intro step hstep
    obtain rfl := List.mem_singleton.mp hstep
    exact answered_bookStep
  obtain ⟨-, hrows⟩ := run_eq_map_join unshadowed_writerEntity hall hanswered hyields
  obtain ⟨hfirst, -⟩ := List.forall₂_cons.mp hrows
  exact ⟨_, _, _, hyields, by cbv, hfirst⟩

end Books

end Load

end RestQuery
