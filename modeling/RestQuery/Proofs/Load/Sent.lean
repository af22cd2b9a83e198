import RestQuery.Proofs.Load.Run

/-!
# What a run sends

A run adds its statements behind those that were sent before it, and they stay sent when it fails.
`Sends` says what it may add. A load adds nothing but statements of its steps: each asks for the
rows of one relation of the tree, with the load that is filed under the path of this relation.
-/

namespace RestQuery

open Sql Schema LoadStep ExpandClause

/-- Whether it returns or fails, a run adds some statements to those that were sent, as `L` says. -/
def Sends {α : Type} (L : List Statement → Prop) (x : Run α) : Prop :=
  ∀ sent, ∃ more, (x.run.run sent).run.2 = sent ++ more ∧ L more

section Sends

variable {α β : Type} {L M N : List Statement → Prop} {x : Run α}

theorem sends_pure (a : α) (h : L []) : Sends L (pure a) :=
  fun sent => ⟨[], (List.append_nil sent).symm, h⟩

theorem sends_throw (failure : Failure) (h : L []) : Sends L (throw failure : Run α) :=
  fun sent => ⟨[], (List.append_nil sent).symm, h⟩

theorem Sends.imp (h : Sends L x) (himp : ∀ more, L more → M more) : Sends M x := by
  intro sent
  obtain ⟨more, hsent, hmore⟩ := h sent
  exact ⟨more, hsent, himp more hmore⟩

/-- The statements of a run that goes on, or those of its first part, if that fails. -/
theorem Sends.bind {f : α → Run β} (hx : Sends L x) (hf : ∀ a, Sends M (f a))
    (hfail : ∀ more, L more → N more)
    (happend : ∀ first more, L first → M more → N (first ++ more)) : Sends N (x >>= f) := by
  intro sent
  obtain ⟨first, hsent, hfirst⟩ := hx sent
  rw [run_bind]
  cases hrun : (x.run.run sent).run with
  | mk result middle =>
    rw [hrun] at hsent
    dsimp only at hsent
    subst hsent
    cases result with
    | error failure => exact ⟨first, rfl, hfail first hfirst⟩
    | ok a =>
      obtain ⟨more, hmore, hM⟩ := hf a (sent ++ first)
      exact ⟨first ++ more, hmore.trans (List.append_assoc ..), happend first more hfirst hM⟩

theorem Sends.andThen {f : α → Run β} (hx : Sends L x)
    (hf : ∀ a, Sends (fun more => more = []) (f a)) : Sends L (x >>= f) := by
  refine hx.bind hf (fun _ h => h) ?_
  rintro first more h rfl
  rwa [List.append_nil]

theorem sends_ask {db : Database} {statement : Statement} (h : L [statement]) :
    Sends L (db.ask statement) :=
  fun sent => ⟨[statement], congrArg Prod.snd (run_ask db statement sent), h⟩

end Sends

/-- A run sends no statements but some of a kind. -/
abbrev SendsOnly {α : Type} (P : Statement → Prop) : Run α → Prop :=
  Sends fun more => ∀ statement ∈ more, P statement

section SendsOnly

variable {α β : Type} {P Q : Statement → Prop} {x : Run α}

theorem sendsOnly_pure (a : α) : SendsOnly P (pure a) := sends_pure a (by simp)

theorem sendsOnly_ask {db : Database} {statement : Statement} (h : P statement) :
    SendsOnly P (db.ask statement) := sends_ask (by simpa using h)

theorem SendsOnly.imp (h : SendsOnly P x) (himp : ∀ statement, P statement → Q statement) :
    SendsOnly Q x :=
  Sends.imp h fun _ hmore statement hmem => himp statement (hmore statement hmem)

theorem SendsOnly.bind {f : α → Run β} (hx : SendsOnly P x) (hf : ∀ a, SendsOnly P (f a)) :
    SendsOnly P (x >>= f) :=
  Sends.bind hx hf (fun _ h => h) fun _ _ hfirst hmore => List.forall_mem_append.mpr ⟨hfirst, hmore⟩

theorem sendsOnly_foldlM {f : β → α → Run β} (hf : ∀ b a, SendsOnly P (f b a)) (b : β)
    (as : List α) : SendsOnly P (as.foldlM f b) := by
  induction as generalizing b with
  | nil => exact sendsOnly_pure b
  | cons a as ih =>
    rw [List.foldlM_cons]
    exact (hf b a).bind ih

end SendsOnly

/-! ### The statements of a load -/

def LoadStep.path : LoadStep → String
  | .fail path _ => path
  | .owner path _ _ _ _ => path
  | .related path _ _ _ _ _ _ => path

/-- A statement by which a step asks for the rows of its relation. A polymorphic relation has one
for each type. -/
inductive LoadStep.Asks (schema : Schema) : LoadStep → Statement → Prop
  | owner {path name typeColumn typeValue : String} {relation : Relation} {load : EagerLoad}
      {target : Entity} (keys : List Value) (htarget : schema.morph? typeValue = some target) :
      Asks schema (.owner path name typeColumn relation load)
        (.ofRelation relation target load keys)
  | related {path name parentColumn : String} {relation : Relation} {load : EagerLoad}
      {target : Entity} {steps : List LoadStep} (keys : List Value) :
      Asks schema (.related path name parentColumn relation target load steps)
        (.ofRelation relation target load keys)

/-- A statement of one of some steps, or of a step below these. -/
def AskedWithin (schema : Schema) (steps : List LoadStep) (statement : Statement) : Prop :=
  ∃ level step, step ∈ stepsAt steps level ∧ step.Asks schema statement

theorem AskedWithin.mono {schema : Schema} {steps more : List LoadStep} {statement : Statement}
    (h : AskedWithin schema steps statement) (hsub : ∀ step ∈ steps, step ∈ more) :
    AskedWithin schema more statement := by
  obtain ⟨level, step, hstep, hasks⟩ := h
  refine ⟨level, step, ?_, hasks⟩
  cases level with
  | nil => exact hsub step hstep
  | cons name rest =>
    obtain ⟨first, hfirst, hbelow⟩ := mem_stepsAt_cons.mp hstep
    exact mem_stepsAt_cons.mpr ⟨first, hsub first hfirst, hbelow⟩

theorem AskedWithin.below {schema : Schema} {path name parentColumn : String} {relation : Relation}
    {target : Entity} {load : EagerLoad} {steps : List LoadStep} {statement : Statement}
    (h : AskedWithin schema steps statement) :
    AskedWithin schema [.related path name parentColumn relation target load steps] statement := by
  obtain ⟨level, step, hstep, hasks⟩ := h
  refine ⟨name :: level, step, mem_stepsAt_cons.mpr ⟨_, List.mem_singleton_self _, ?_⟩, hasks⟩
  simpa [stepsBelow] using hstep

namespace Load

variable {db : Database} {schema : Schema}

theorem sendsOnly_level {P : Statement → Prop} {load : List Row → Run (List Row)}
    (h : ∀ rows, SendsOnly P (load rows)) (entity : Entity) (rows : List Row) :
    SendsOnly P (level entity load rows) := by
  unfold level
  split
  · exact sendsOnly_pure rows
  · exact (h rows).bind fun _ => sendsOnly_pure _

theorem sendsOnly_loadOwnersOf (path name typeColumn : String) (relation : Relation)
    (load : EagerLoad) (typed : List Typed) (typeValue : String) :
    SendsOnly (Asks schema (.owner path name typeColumn relation load))
      (loadOwnersOf db schema name relation load typed typeValue) := by
  unfold loadOwnersOf
  split
  · exact sendsOnly_pure _
  · next target htarget =>
    dsimp only
    split
    · exact sendsOnly_pure _
    · exact (sendsOnly_ask (.owner _ htarget)).bind fun _ => sendsOnly_pure _

theorem sendsOnly_loadOwners (path name typeColumn : String) (relation : Relation)
    (load : EagerLoad) (rows : List Row) :
    SendsOnly (Asks schema (.owner path name typeColumn relation load))
      (loadOwners db schema name typeColumn relation load rows) :=
  .bind (sendsOnly_foldlM (sendsOnly_loadOwnersOf path name typeColumn relation load) _ _)
    fun _ => sendsOnly_pure _

mutual

/-- A step sends its own statements and those of the steps below it. -/
theorem sendsOnly_runStep : ∀ (step : LoadStep) (rows : List Row),
    SendsOnly (AskedWithin schema [step]) (runStep db schema step rows)
  | .fail path failure, rows => by
    rw [runStep]
    exact sends_throw failure (by simp)
  | .owner path name typeColumn relation load, rows => by
    rw [runStep]
    exact (sendsOnly_loadOwners path name typeColumn relation load rows).imp fun _ hasks =>
      ⟨[], _, List.mem_singleton_self _, hasks⟩
  | .related path name parentColumn relation target load steps, rows => by
    rw [runStep]
    split
    · exact sendsOnly_pure _
    · have hown : ∀ keys, AskedWithin schema
          [.related path name parentColumn relation target load steps]
          (.ofRelation relation target load keys) := fun keys =>
        ⟨[], _, List.mem_singleton_self _, .related keys⟩
      refine (sendsOnly_ask (hown _)).bind fun children => ?_
      refine .bind (sendsOnly_level (fun rows => ?_) target children) fun _ => sendsOnly_pure _
      exact (sendsOnly_runSteps steps rows).imp fun _ => AskedWithin.below

theorem sendsOnly_runSteps : ∀ (steps : List LoadStep) (rows : List Row),
    SendsOnly (AskedWithin schema steps) (runSteps db schema steps rows)
  | [], rows => by
    rw [runSteps]
    exact sendsOnly_pure rows
  | step :: rest, rows => by
    rw [runSteps]
    refine .bind ?_ fun rows => ?_
    · exact (sendsOnly_runStep step rows).imp fun _ h => h.mono (by simp)
    · exact (sendsOnly_runSteps rest rows).imp fun _ h => h.mono fun _ => List.mem_cons_of_mem step

end

theorem sendsOnly_run (schema : Schema) (loads : Dict EagerLoad) (entity : Entity)
    (rows : List Row) :
    SendsOnly (AskedWithin schema (ofLoads schema loads entity))
      (Load.run db schema loads entity rows) :=
  sendsOnly_level (sendsOnly_runSteps _) entity rows

end Load

/-- A statement for rows of the relation at a path: it has the load that is filed under the path. -/
inductive AsksAt (schema : Schema) (loads : Dict EagerLoad) (root : Entity) (path : String) :
    Statement → Prop
  | intro {level : List String} {name : String} {parent target : Entity} {relation : Relation}
      (keys : List Value) (hat : RelationAt schema.loadsTo root level name parent relation)
      (hpath : path = pathBelow (pathTo level) name)
      (htarget : schema.loadsTo parent relation = some target ∨
        relation.kind = .morphTo ∧ ∃ typeValue, schema.morph? typeValue = some target) :
      AsksAt schema loads root path
        (.ofRelation relation target ((loads.get? path).getD .empty) keys)

theorem asksAt_path {schema : Schema} {loads : Dict EagerLoad} {root : Entity}
    {level : List String} {step : LoadStep} {statement : Statement}
    (hstep : step ∈ stepsAt (ofLoads schema loads root) level)
    (hasks : step.Asks schema statement) :
    AsksAt schema loads root step.path statement := by
  rcases mem_stepsAt_ofLoads hstep with ⟨_, _, rfl⟩ | ⟨name, parent, relation, hat, hloads⟩
  · cases hasks
  · cases hloads with
    | owner hkind =>
      cases hasks with
      | owner keys hmorph => exact .intro keys hat rfl (.inr ⟨hkind, _, hmorph⟩)
    | related _ htarget =>
      cases hasks with
      | related keys => exact .intro keys hat rfl (.inl htarget)

/-- A load asks for nothing but rows of relations, each with the load filed under its path. -/
theorem Load.sendsOnly_run_asksAt (db : Database) (schema : Schema) (loads : Dict EagerLoad)
    (root : Entity) (rows : List Row) :
    SendsOnly (fun statement => ∃ path, AsksAt schema loads root path statement)
      (Load.run db schema loads root rows) := by
  refine (Load.sendsOnly_run schema loads root rows).imp fun statement h => ?_
  obtain ⟨_, step, hstep, hasks⟩ := h
  exact ⟨step.path, asksAt_path hstep hasks⟩

end RestQuery
