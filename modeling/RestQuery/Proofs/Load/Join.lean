import RestQuery.Proofs.Load.Rowwise

/-!
# Rows joined to a row

`joinSteps` says what a single row receives from tables: at each relation the rows of a table that
have its key, each with its own relations in place. A database answers from tables if it returns,
for the keys of any rows of a level, the rows of a table that have these keys. Then what is asked
for a row contains all that is joined to it, whatever other rows are asked for with it.
-/

namespace RestQuery

open LoadStep Stitch

namespace Load

/-- The rows that a database holds for each relation path. Owners are also told apart by the type
value that names their entity. -/
structure Tables where
  related : String → List Row
  owners : String → String → List Row

def askedFor (column own : String) (rows table : List Row) : List Row :=
  table.filter fun row => rows.any fun asking => sameKey (keyAt column asking) (keyAt own row)

/-- The statement for the keys of any rows of a level is answered with the rows of a table that have
these keys, in the order of the table. -/
def AnswersFrom (db : Database) (statement : List Sql.Value → Sql.Statement) (column own : String)
    (level table : List Row) : Prop :=
  ∀ rows : List Row, rows.Sublist level → distinctKeys column rows ≠ [] → ∀ sent,
    db (sent ++ [statement (distinctKeys column rows)]) = .rows (askedFor column own rows table)

/-! ### What a single row receives -/

/-- The owner of a row: the last row of its type that has its key. -/
def ownerOf (schema : Schema) (tables : Tables) (path typeColumn : String) (relation : Relation)
    (row : Row) : Option Row :=
  (typeValueAt typeColumn row).bind fun typeValue =>
    (schema.morph? typeValue).bind fun target =>
      ((matching relation.localKey (keyAt relation.foreignKey row)
        (tables.owners path typeValue)).map target.compute).getLast?

def joinRelated (name column own : String) (toMany : Bool) (table : List Row) (finish : Row → Row)
    (row : Row) : Row :=
  row.insert name (shown toMany
    ((matching own (keyAt column row) table).map fun child =>
      .object (detached own (finish child))))

mutual

def joinStep (schema : Schema) (tables : Tables) : LoadStep → Row → Row
  | .fail _ _, row => row
  | .owner path name typeColumn relation _, row =>
    row.insert name ((ownerOf schema tables path typeColumn relation row).elim .null .object)
  | .related path name parentColumn relation target _ steps, row =>
    joinRelated name parentColumn relation.relatedJoinColumn relation.kind.isToMany
      (tables.related path) (fun child => target.compute (joinSteps schema tables steps child)) row

def joinSteps (schema : Schema) (tables : Tables) : List LoadStep → Row → Row
  | [], row => row
  | step :: rest, row => joinSteps schema tables rest (joinStep schema tables step row)

end

/-- The database answers what a step may ask for the rows of a level, and what the steps below may
ask for the rows of its table. -/
inductive Answered (db : Database) (schema : Schema) (tables : Tables) : List Row → LoadStep → Prop
  | fail (level : List Row) (path : String) (failure : Failure) :
      Answered db schema tables level (.fail path failure)
  | owner {level : List Row} {path name typeColumn : String} {relation : Relation}
      {load : EagerLoad}
      (hanswers : ∀ {typeValue target}, schema.morph? typeValue = some target →
        AnswersFrom db (.ofRelation relation target load) relation.foreignKey relation.localKey
          (level.filter (typeValueAt typeColumn · = some typeValue))
          (tables.owners path typeValue)) :
      Answered db schema tables level (.owner path name typeColumn relation load)
  | related {level : List Row} {path name parentColumn : String} {relation : Relation}
      {target : Entity} {load : EagerLoad} {steps : List LoadStep}
      (hanswers : AnswersFrom db (.ofRelation relation target load) parentColumn
        relation.relatedJoinColumn level (tables.related path))
      (hsteps : ∀ step ∈ steps, Answered db schema tables (tables.related path) step) :
      Answered db schema tables level (.related path name parentColumn relation target load steps)

section Join

variable {schema : Schema} {tables : Tables}

theorem wrote_joinStep {step : LoadStep} {name : String} (h : step.name? = some name)
    (row : Row) : Wrote name row (joinStep schema tables step row) := by
  cases step with
  | fail path failure => cases h
  | owner path own typeColumn relation load =>
    obtain rfl := Option.some.inj h
    rw [joinStep]
    refine ⟨_, rfl, ?_⟩
    cases ownerOf schema tables path typeColumn relation row <;> rfl
  | related path own parentColumn relation target load steps =>
    obtain rfl := Option.some.inj h
    rw [joinStep]
    exact ⟨_, rfl, keyText_shown ..⟩

theorem joinStep_of_unnamed {step : LoadStep} (h : step.name? = none) (row : Row) :
    joinStep schema tables step row = row := by
  cases step with
  | fail path failure => rw [joinStep]
  | owner => cases h
  | related => cases h

theorem joinStep_get?_of_ne {step : LoadStep} {column : String} (h : step.name? ≠ some column)
    (row : Row) : (joinStep schema tables step row).get? column = row.get? column := by
  cases hname : step.name? with
  | none => rw [joinStep_of_unnamed hname]
  | some name => exact (wrote_joinStep hname row).get?_of_ne fun he => h (he ▸ hname)

theorem joinSteps_get?_of_notMem {steps : List LoadStep} {column : String}
    (h : column ∉ names steps) (row : Row) :
    (joinSteps schema tables steps row).get? column = row.get? column := by
  induction steps generalizing row with
  | nil => rw [joinSteps]
  | cons step steps ih =>
    have hstep : step.name? ≠ some column := fun hname => h (by simp [names, hname])
    have hsteps : column ∉ names steps := by
      rw [names, List.filterMap_cons] at h
      split at h
      · exact h
      · exact fun hmem => h (List.mem_cons_of_mem _ hmem)
    rw [joinSteps, ih hsteps, joinStep_get?_of_ne hstep]

/-- A relation puts no text in the place of a type. -/
theorem typedFrom_joinStep (step : LoadStep) (typeColumn : String) (row : Row) :
    TypedFrom typeColumn row (joinStep schema tables step row) := by
  cases hname : step.name? with
  | none =>
    rw [joinStep_of_unnamed hname]
    exact fun _ htype => htype
  | some name => exact typedFrom_of_wrote (wrote_joinStep hname row) typeColumn

/-- A step that does not write the column by which a later step ties rows changes nothing that this
one finds. -/
theorem Finds.joinStep {step later : LoadStep} {row row' : Row} (h : Finds later row row')
    (hname : ∀ column, later.joinColumn? = some column → step.name? ≠ some column) :
    Finds later row (joinStep schema tables step row') := by
  cases later with
  | fail path failure => trivial
  | owner path name typeColumn relation load =>
    exact ⟨(joinStep_get?_of_ne (hname _ rfl) row').trans h.1,
      fun typeValue htype => h.2 _ (typedFrom_joinStep step typeColumn row' _ htype)⟩
  | related path name parentColumn relation target load steps =>
    exact (joinStep_get?_of_ne (hname _ rfl) row').trans h

end Join

/-! ### What is asked for a row -/

theorem askedFor_congr {column own : String} {rows rows' : List Row}
    (h : List.Forall₂ (SameAt column) rows rows')
    (table : List Row) : askedFor column own rows' table = askedFor column own rows table := by
  unfold askedFor
  refine List.filter_congr fun row _ => ?_
  induction h with
  | nil => rfl
  | cons hkey _ ih => rw [List.any_cons, List.any_cons, ih, keyAt, hkey, ← keyAt]

theorem askedFor_eq_nil {column own : String} {rows table : List Row}
    (h : distinctKeys column rows = []) : askedFor column own rows table = [] := by
  refine List.filter_eq_nil_iff.mpr fun row _ => ?_
  rw [List.any_eq_true]
  rintro ⟨asking, hasking, hsame⟩
  simp [distinctKeys_eq_nil_iff.mp h asking hasking, sameKey] at hsame

theorem askedFor_sublist {column own : String} {part rows : List Row} (h : part.Sublist rows)
    (table : List Row) :
    (askedFor column own part table).Sublist (askedFor column own rows table) :=
  List.monotone_filter_right table fun row hrow => by
    obtain ⟨asking, hasking, hsame⟩ := List.any_eq_true.mp hrow
    exact List.any_eq_true.mpr ⟨asking, h.mem hasking, hsame⟩

theorem matching_askedFor {column own : String} {rows : List Row} {row : Row} (hrow : row ∈ rows)
    (table : List Row) :
    matching own (keyAt column row) (askedFor column own rows table) =
      matching own (keyAt column row) table := by
  unfold matching askedFor
  rw [List.filter_filter]
  refine List.filter_congr fun child _ => ?_
  cases hsame : sameKey (keyAt column row) (keyAt own child) with
  | false => rfl
  | true => exact List.any_eq_true.mpr ⟨row, hrow, hsame⟩

theorem matching_map {own : String} {f : Row → Row}
    (hf : ∀ row, (f row).get? own = row.get? own) (key : Option String) (rows : List Row) :
    matching own key (rows.map f) = (matching own key rows).map f := by
  unfold matching
  rw [List.filter_map]
  congr 1
  refine List.filter_congr fun row _ => ?_
  rw [Function.comp_apply, keyAt, hf, ← keyAt]

section Fetched

variable {db : Database} {relation : Relation} {target : Entity} {load : EagerLoad}
  {column own : String} {level table rows : List Row} {start middle middle' : List Sql.Statement}
  {children children' : List Row}

/-- The answer to the statement for some rows of a level, whatever else these rows hold by then. -/
theorem AnswersFrom.fetched (h : AnswersFrom db (.ofRelation relation target load) column own level
      table) (hrows : Drawn (SameAt column) level rows) (start : List Sql.Statement) :
    ∃ middle, Fetched db relation target load (distinctKeys column rows) start
      (askedFor column own rows table) middle := by
  obtain ⟨origin, hsub, hall⟩ := hrows
  rw [distinctKeys_congr hall, askedFor_congr hall]
  unfold Fetched
  split
  · next hkeys => exact ⟨start, askedFor_eq_nil hkeys, rfl⟩
  · next hkeys => exact ⟨_, rfl, h origin hsub hkeys start⟩

theorem Fetched.unique {keys : List Sql.Value}
    (h : Fetched db relation target load keys start children middle)
    (h' : Fetched db relation target load keys start children' middle') : children = children' := by
  unfold Fetched at h h'
  split at h
  · next hkeys =>
    rw [if_pos hkeys] at h'
    exact h.1.trans h'.1.symm
  · next hkeys =>
    rw [if_neg hkeys] at h'
    obtain ⟨rfl, hrows⟩ := h
    obtain ⟨rfl, hrows'⟩ := h'
    exact Answer.rows.inj (hrows.symm.trans hrows')

end Fetched

end Load

end RestQuery
