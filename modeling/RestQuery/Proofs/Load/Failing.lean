import RestQuery.Proofs.Load.Stops

/-!
# Loads that fail only with the database

A step fails where the schema does not know its relation or the entity behind it. If the paths to
load and all default paths can be followed through the schema, no such step is built, on whatever
level. Then a load fails only when a statement does, and with the failure of that statement.
-/

namespace RestQuery

open Text Schema LoadStep

/-! ### Runs that fail only with the database -/

/-- A run fails only when a statement does, with the failure of that statement. -/
def FailsByDatabase {α : Type} (db : Database) (x : Run α) : Prop :=
  ∀ sent failure sent', (x.run.run sent).run = (.error failure, sent') →
    ∃ fault, db sent' = .fault fault ∧ failure = fault.onStatement

theorem DatabaseFault.kind_onStatement (fault : DatabaseFault) :
    fault.onStatement.kind ∈ [.unknownResourceField, .notFound, .database] := by
  unfold onStatement
  split
  · simp [Failure.kind]
  · cases fault <;> simp [toFailure, Failure.kind]

namespace LoadStep

/-- Neither a step nor any step below it is one that fails. -/
inductive Unfailing : LoadStep → Prop
  | owner (path name typeColumn : String) (relation : Relation) (load : EagerLoad) :
      Unfailing (.owner path name typeColumn relation load)
  | related (path name parentColumn : String) (relation : Relation) (target : Entity)
      (load : EagerLoad) {steps : List LoadStep} (hsteps : ∀ step ∈ steps, Unfailing step) :
      Unfailing (.related path name parentColumn relation target load steps)

theorem Unfailing.fail_notMem_all {step : LoadStep} (h : step.Unfailing) (path : String)
    (failure : Failure) : .fail path failure ∉ step.all := by
  induction h with
  | owner => simp [all]
  | related _ _ _ _ _ _ _ ih =>
    rw [all, List.mem_cons, mem_allOf]
    rintro (hself | ⟨first, hfirst, hbelow⟩)
    · cases hself
    · exact ih first hfirst hbelow

/-- What a step asks for are rows, which go wrong with a fault of the database only. -/
theorem Asks.eq_fault {schema : Schema} {step : LoadStep} {statement : Sql.Statement}
    (h : step.Asks schema statement) {answer : Answer} {fault : DatabaseFault}
    (hfault : answer.fault? statement = some fault) : answer = .fault fault := by
  cases answer with
  | rows rows => cases h <;> cases hfault
  | fault reported => rw [Option.some.inj hfault]

end LoadStep

/-! ### Paths that can be followed -/

namespace Schema

/-- Each segment names a relation of the entity that the segments before it reach. It leads on to a
registered entity; only the last one may be polymorphic. -/
def Follows (schema : Schema) (root : Entity) (segments : List String) : Prop :=
  ∀ above name after, segments = above ++ name :: after →
    ∃ parent relation, RelationAt schema.loadsTo root above name parent relation ∧
      (relation.kind = .morphTo ∧ after = [] ∨
        ∃ target, schema.loadsTo parent relation = some target)

def Resolves (schema : Schema) (root : Entity) (path : String) : Prop :=
  schema.Follows root (pieces '.' path)

def DefaultsResolve (schema : Schema) : Prop :=
  ∀ ⦃name entity⦄, schema.entity? name = some entity →
    ∀ path ∈ entity.defaults, schema.Resolves entity path

variable {schema : Schema} {root : Entity}

theorem Follows.exists_relation {name : String} {rest : List String}
    (h : schema.Follows root (name :: rest)) :
    ∃ relation, root.relation? name = some relation ∧
      (relation.kind = .morphTo ∨ ∃ target, schema.loadsTo root relation = some target) := by
  obtain ⟨parent, relation, hat, hnext⟩ := h [] name rest rfl
  obtain rfl := hat.eq_root rfl
  exact ⟨relation, hat.declared, hnext.imp And.left id⟩

theorem Follows.rest {name : String} {rest : List String} {relation : Relation} {target : Entity}
    (h : schema.Follows root (name :: rest)) (hrel : root.relation? name = some relation)
    (htarget : schema.loadsTo root relation = some target) : schema.Follows target rest := by
  intro above last after hrest
  obtain ⟨parent, relation', hat, hnext⟩ := h (name :: above) last after (by rw [hrest]; rfl)
  exact ⟨parent, relation', (relationAt_cons_iff hrel htarget).mp hat, hnext⟩

theorem follows_nil : schema.Follows root [] := by
  intro above name after h
  simp at h

theorem Follows.cons {name : String} {rest : List String} {relation : Relation} {target : Entity}
    (hrel : root.relation? name = some relation)
    (htarget : schema.loadsTo root relation = some target) (h : schema.Follows target rest) :
    schema.Follows root (name :: rest) := by
  intro above last after hsplit
  cases above with
  | nil =>
    obtain ⟨rfl, rfl⟩ := List.cons.inj hsplit
    exact ⟨root, relation, ⟨rfl, hrel⟩, Or.inr ⟨target, htarget⟩⟩
  | cons first above =>
    obtain ⟨rfl, hrest⟩ := List.cons.inj hsplit
    obtain ⟨parent, relation', hat, hnext⟩ := h above last after hrest
    exact ⟨parent, relation', (relationAt_cons_iff hrel htarget).mpr hat, hnext⟩

end Schema

namespace LoadStep

theorem exists_pieces_eq_headOf (path : String) :
    ∃ rest, pieces '.' path = headOf path :: rest := by
  unfold headOf
  cases hcut : cutFirst '.' path with
  | none => exact ⟨[], pieces_of_undotted (undotted_of_cutFirst_eq_none hcut)⟩
  | some cut =>
    obtain ⟨rfl, hhead⟩ := eq_dotted_of_cutFirst (a := cut.1) (b := cut.2) hcut
    exact ⟨pieces '.' cut.2, by rw [pieces_dotted, pieces_of_undotted hhead]; rfl⟩

theorem pieces_of_restBelow {name path rest : String} (h : restBelow name path = some rest) :
    pieces '.' path = name :: pieces '.' rest := by
  unfold restBelow at h
  split at h
  · next head after hcut =>
    split at h
    · next hhead =>
      obtain rfl := Option.some.inj h
      subst hhead
      obtain ⟨rfl, hundotted⟩ := eq_dotted_of_cutFirst hcut
      rw [pieces_dotted, pieces_of_undotted hundotted]
      rfl
    · cases h
  · cases h

variable {schema : Schema} {loads : Dict EagerLoad}

theorem unfailing_of_mem_build (hb : schema.Built) (hd : schema.DefaultsResolve) {depth : Nat}
    {entity : Entity} {above : String} {pending : List String} {step : LoadStep}
    (hentity : ∃ name, schema.entity? name = some entity)
    (hpending : ∀ path ∈ pending, schema.Resolves entity path)
    (h : step ∈ build schema loads depth entity above pending) : step.Unfailing := by
  -- the steps below a step are built with a smaller budget
  induction hn : budget schema depth entity pending using Nat.strongRecOn
    generalizing depth entity above pending step with
  | ind n ih =>
    obtain ⟨name, hname, hmade⟩ := mem_build_iff.mp h
    obtain ⟨entityName, hregistered⟩ := hentity
    have hpaths : ∀ path ∈ pathsAt depth entity pending, schema.Resolves entity path := by
      intro path hpath
      unfold pathsAt at hpath
      rcases List.mem_append.mp hpath with hpath | hpath
      · exact hpending path hpath
      · split at hpath
        · exact hd hregistered path hpath
        · cases hpath
    obtain ⟨path, hpath, rfl⟩ := mem_heads.mp hname
    obtain ⟨rest, hpieces⟩ := exists_pieces_eq_headOf path
    have hfollows : schema.Follows entity (headOf path :: rest) := hpieces ▸ hpaths path hpath
    obtain ⟨relation, hrel, hnext⟩ := hfollows.exists_relation
    cases hmade with
    | unknown hnone => simp [hnone] at hrel
    | untyped hrel' hkind htype =>
      obtain ⟨typeColumn, hsome⟩ := (hb hregistered hrel').exists_typeColumn hkind
      simp [htype] at hsome
    | unregistered hrel' hkind hnone =>
      obtain rfl := Option.some.inj (hrel.symm.trans hrel')
      rcases hnext with hmorph | ⟨target, htarget⟩
      · exact absurd hmorph hkind
      · simp [hnone] at htarget
    | owner => exact .owner ..
    | related hrel' htarget =>
      obtain ⟨targetName, htargetName⟩ := exists_name_of_loadsTo htarget
      refine .related _ _ _ _ _ _ fun below hbelow => ?_
      refine ih _ (hn ▸ budget_below_lt hname htargetName) ⟨targetName, htargetName⟩ ?_ hbelow rfl
      intro later hlater
      obtain ⟨whole, hwhole, hlater⟩ := List.mem_filterMap.mp hlater
      have hwhole := hpaths whole hwhole
      rw [Resolves, pieces_of_restBelow hlater] at hwhole
      exact hwhole.rest hrel' htarget

end LoadStep

/-- A load can fail only with the database if the paths of the plan and the default paths can be
followed. -/
theorem Load.failsByDatabase_run {db : Database} {schema : Schema} (hb : schema.Built)
    (hd : schema.DefaultsResolve) {entity : Entity}
    (hentity : ∃ name, schema.entity? name = some entity) {loads : Dict EagerLoad}
    (hloads : ∀ path ∈ loads.keys, schema.Resolves entity path) (rows : List Row) :
    FailsByDatabase db (Load.run db schema loads entity rows) := by
  intro sent failure sent' h
  obtain ⟨result, more, hrun, hstop⟩ := stopsAtFault_run schema loads entity rows sent
  obtain ⟨rfl, rfl⟩ := Prod.mk.inj (hrun.symm.trans h)
  cases hstop with
  | own _ hown =>
    obtain ⟨path, hfail⟩ := hown
    obtain ⟨step, hstep, hbelow⟩ := mem_allOf.mp hfail
    have hunfailing : step.Unfailing := unfailing_of_mem_build hb hd hentity
      (fun path hpath => hloads path (List.mem_filter.mp hpath).1) hstep
    exact absurd hbelow (hunfailing.fail_notMem_all path failure)
  | @fault before _ statement fault hfault =>
    obtain ⟨asked, hasked, hsteps⟩ := sendsOnly_run schema loads entity rows sent
    rw [hrun] at hasked
    have hlast : statement ∈ asked := by
      rw [← List.append_cancel_left hasked]
      exact List.mem_append_right _ (List.mem_singleton_self _)
    obtain ⟨_, _, _, hasks⟩ := hsteps statement hlast
    rw [← List.append_assoc]
    exact ⟨fault, hasks.eq_fault hfault, rfl⟩

end RestQuery
