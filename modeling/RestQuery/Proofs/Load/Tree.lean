import RestQuery.Load.Step
import RestQuery.Proofs.Dict
import RestQuery.Proofs.Level

/-!
# The steps of a level

The tree of a load is addressed like the levels of the schema: by the names of the relations that
lead down to a place. Whatever asked for a step, a request or a default path, the step loads a
relation of the entity at its level, with the load that the plan files under its path.
-/

namespace RestQuery

open Schema ExpandClause

namespace LoadStep

def name? : LoadStep → Option String
  | .fail _ _ => none
  | .owner _ name _ _ _ => some name
  | .related _ name _ _ _ _ _ => some name

def names (steps : List LoadStep) : List String := steps.filterMap name?

def readColumns : LoadStep → List String
  | .fail _ _ => []
  | .owner _ _ typeColumn relation _ => [relation.foreignKey, typeColumn]
  | .related _ _ parentColumn _ _ _ _ => [parentColumn]

/-- The column of its rows by which a step ties them to related rows. -/
def joinColumn? : LoadStep → Option String
  | .fail _ _ => none
  | .owner _ _ _ relation _ => some relation.foreignKey
  | .related _ _ parentColumn _ _ _ _ => some parentColumn

/-- The steps on the rows that a step loads under a name. -/
def stepsBelow (name : String) : LoadStep → List LoadStep
  | .related _ own _ _ _ _ steps => if own = name then steps else []
  | _ => []

def stepsAt (steps : List LoadStep) : List String → List LoadStep
  | [] => steps
  | name :: rest => stepsAt (steps.flatMap (stepsBelow name)) rest

@[simp] theorem stepsAt_nil (level : List String) : stepsAt [] level = [] := by
  induction level with
  | nil => rfl
  | cons name rest ih => exact ih

theorem stepsAt_append (steps more : List LoadStep) (level : List String) :
    stepsAt (steps ++ more) level = stepsAt steps level ++ stepsAt more level := by
  induction level generalizing steps more with
  | nil => rfl
  | cons name rest ih => rw [stepsAt, List.flatMap_append, ih, stepsAt, stepsAt]

theorem mem_stepsAt_cons {steps : List LoadStep} {name : String} {rest : List String}
    {step : LoadStep} : step ∈ stepsAt steps (name :: rest) ↔
      ∃ first ∈ steps, step ∈ stepsAt (first.stepsBelow name) rest := by
  rw [stepsAt]
  induction steps with
  | nil => simp
  | cons first steps ih =>
    rw [List.flatMap_cons, stepsAt_append, List.mem_append, ih]
    simp only [List.mem_cons, exists_eq_or_imp]

mutual

def all : LoadStep → List LoadStep
  | .related path name parentColumn relation target load steps =>
    .related path name parentColumn relation target load steps :: allOf steps
  | step => [step]

def allOf : List LoadStep → List LoadStep
  | [] => []
  | step :: rest => step.all ++ allOf rest

end

theorem self_mem_all (step : LoadStep) : step ∈ step.all := by
  cases step <;> simp [all]

theorem mem_allOf {steps : List LoadStep} {step : LoadStep} :
    step ∈ allOf steps ↔ ∃ first ∈ steps, step ∈ first.all := by
  induction steps with
  | nil => simp [allOf]
  | cons first rest ih => rw [allOf, List.mem_append, ih, List.exists_mem_cons_iff]

theorem mem_allOf_of_mem_stepsAt {steps : List LoadStep} {level : List String} {step : LoadStep}
    (h : step ∈ stepsAt steps level) : step ∈ allOf steps := by
  induction level generalizing steps with
  | nil => exact mem_allOf.mpr ⟨step, h, self_mem_all step⟩
  | cons name rest ih =>
    obtain ⟨first, hfirst, hbelow⟩ := mem_stepsAt_cons.mp h
    refine mem_allOf.mpr ⟨first, hfirst, ?_⟩
    cases first with
    | related path own parentColumn relation target load steps =>
      rw [stepsBelow] at hbelow
      split at hbelow
      · exact List.mem_cons_of_mem _ (ih hbelow)
      · simp at hbelow
    | _ => simp [stepsBelow] at hbelow

/-- A step loads a relation of `parent` at a path, and on the related rows what is built for
them. -/
inductive Loads (schema : Schema) (loads : Dict EagerLoad) (depth : Nat) (parent : Entity)
    (relation : Relation) (name path : String) : LoadStep → Prop
  | owner {typeColumn : String} (hkind : relation.kind = .morphTo)
      (htype : relation.typeColumn = some typeColumn) :
      Loads schema loads depth parent relation name path
        (.owner path name typeColumn relation ((loads.get? path).getD .empty))
  | related {target : Entity} (pending : List String)
      (htarget : schema.loadsTo parent relation = some target) :
      Loads schema loads depth parent relation name path
        (.related path name (relation.parentJoinColumn parent.primaryKey) relation target
          ((loads.get? path).getD .empty)
          (build schema loads (depth + 1) target (path ++ ".") pending))

variable {schema : Schema} {loads : Dict EagerLoad}

section Loads

variable {depth : Nat} {parent : Entity} {relation : Relation} {name path : String}
  {step : LoadStep}

theorem Loads.name?_eq (h : step.Loads schema loads depth parent relation name path) :
    step.name? = some name := by
  cases h <;> rfl

theorem Loads.readColumns_eq (h : step.Loads schema loads depth parent relation name path) :
    step.readColumns = relation.parentKeys parent.primaryKey := by
  cases h with
  | owner hkind htype =>
    simp [readColumns, Relation.parentKeys, Relation.parentJoinColumn, hkind, htype]
  | related pending htarget =>
    have hkind : relation.kind ≠ .morphTo := fun hk => by simp [loadsTo, hk] at htarget
    simp [readColumns, Relation.parentKeys, hkind]

theorem Loads.joinColumn?_eq (h : step.Loads schema loads depth parent relation name path) :
    step.joinColumn? = some (relation.parentJoinColumn parent.primaryKey) := by
  cases h with
  | owner hkind htype => rw [joinColumn?, Relation.parentJoinColumn, hkind]
  | related pending htarget => rfl

/-- Below a step lies nothing but what is built for its target. -/
theorem Loads.stepsBelow_eq (h : step.Loads schema loads depth parent relation name path)
    (other : String) : step.stepsBelow other = [] ∨
      other = name ∧ ∃ target pending, schema.loadsTo parent relation = some target ∧
        step.stepsBelow other = build schema loads (depth + 1) target (path ++ ".") pending := by
  cases h with
  | owner => exact Or.inl rfl
  | related pending htarget =>
    by_cases hother : name = other
    · exact Or.inr ⟨hother.symm, _, pending, htarget, if_pos hother⟩
    · exact Or.inl (if_neg hother)

end Loads

section Build

/-- The step that is built for the first segment of a path. -/
inductive Made (schema : Schema) (loads : Dict EagerLoad) (depth : Nat) (parent : Entity)
    (above : String) (pending : List String) (name : String) : LoadStep → Prop
  | unknown (hrel : parent.relation? name = none) :
      Made schema loads depth parent above pending name
        (.fail (above ++ name) (.unknownRelation parent.name name))
  | untyped {relation : Relation} (hrel : parent.relation? name = some relation)
      (hkind : relation.kind = .morphTo) (htype : relation.typeColumn = none) :
      Made schema loads depth parent above pending name
        (.fail (above ++ name) (.internal (.noTypeColumn name)))
  | unregistered {relation : Relation} (hrel : parent.relation? name = some relation)
      (hkind : relation.kind ≠ .morphTo) (htarget : schema.loadsTo parent relation = none) :
      Made schema loads depth parent above pending name
        (.fail (above ++ name)
          (.internal (.unregisteredRelated name (relation.related.getD ""))))
  | owner {relation : Relation} {typeColumn : String}
      (hrel : parent.relation? name = some relation) (hkind : relation.kind = .morphTo)
      (htype : relation.typeColumn = some typeColumn) :
      Made schema loads depth parent above pending name
        (.owner (above ++ name) name typeColumn relation
          ((loads.get? (above ++ name)).getD .empty))
  | related {relation : Relation} {target : Entity}
      (hrel : parent.relation? name = some relation)
      (htarget : schema.loadsTo parent relation = some target) :
      Made schema loads depth parent above pending name
        (.related (above ++ name) name (relation.parentJoinColumn parent.primaryKey) relation target
          ((loads.get? (above ++ name)).getD .empty)
          (build schema loads (depth + 1) target (above ++ name ++ ".")
            ((pathsAt depth parent pending).filterMap (restBelow name))))

/-- A level has one step for each first segment of the paths that are loaded there. -/
theorem mem_build_iff {depth : Nat} {entity : Entity} {above : String} {pending : List String}
    {step : LoadStep} : step ∈ build schema loads depth entity above pending ↔
      ∃ name ∈ heads (pathsAt depth entity pending),
        Made schema loads depth entity above pending name step := by
  rw [build, List.mem_map]
  constructor
  · rintro ⟨⟨name, hname⟩, -, hstep⟩
    refine ⟨name, hname, ?_⟩
    dsimp only at hstep
    split at hstep
    · next hrel =>
      subst hstep
      exact .unknown hrel
    · next relation hrel =>
      split at hstep
      · next hkind =>
        split at hstep
        · next typeColumn htype =>
          subst hstep
          exact .owner hrel hkind htype
        · next htype =>
          subst hstep
          exact .untyped hrel hkind htype
      · next hkind =>
        split at hstep
        · next htarget =>
          subst hstep
          exact .unregistered hrel hkind (by rw [loadsTo, if_neg hkind, htarget])
        · next target htarget =>
          subst hstep
          exact .related hrel (by rw [loadsTo, if_neg hkind, htarget])
  · rintro ⟨name, hname, hmade⟩
    refine ⟨⟨name, hname⟩, List.mem_attach _ _, ?_⟩
    cases hmade with
    | unknown hrel => simp only [hrel]
    | untyped hrel hkind htype => simp only [hrel, hkind, htype, if_true]
    | unregistered hrel hkind htarget =>
      rw [loadsTo, if_neg hkind] at htarget
      simp only [hrel, hkind, if_false]
      split
      · rfl
      · next other hother => simp [htarget] at hother
    | owner hrel hkind htype => simp only [hrel, hkind, htype, if_true]
    | @related relation target hrel htarget =>
      have hkind : relation.kind ≠ .morphTo := fun hk => by simp [loadsTo, hk] at htarget
      rw [loadsTo, if_neg hkind] at htarget
      simp only [hrel, hkind, if_false]
      split
      · next hnone => simp [htarget] at hnone
      · next other hother =>
        obtain rfl : target = other := by simpa [htarget] using hother
        rfl

theorem mem_build {depth : Nat} {entity : Entity} {above : String} {pending : List String}
    {step : LoadStep} (h : step ∈ build schema loads depth entity above pending) :
    (∃ path failure, step = .fail path failure) ∨
      ∃ name relation, entity.relation? name = some relation ∧
        step.Loads schema loads depth entity relation name (above ++ name) := by
  obtain ⟨name, -, hmade⟩ := mem_build_iff.mp h
  cases hmade with
  | owner hrel hkind htype => exact Or.inr ⟨name, _, hrel, .owner hkind htype⟩
  | related hrel htarget => exact Or.inr ⟨name, _, hrel, .related _ htarget⟩
  | _ => exact Or.inl ⟨_, _, rfl⟩

theorem isRelation_of_relation? {entity : Entity} {name : String} {relation : Relation}
    (h : entity.relation? name = some relation) : entity.isRelation name = true :=
  Option.isSome_iff_exists.mpr ⟨relation, h⟩

theorem isRelation_of_mem_names {depth : Nat} {entity : Entity} {above : String}
    {pending : List String} {column : String}
    (h : column ∈ names (build schema loads depth entity above pending)) :
    entity.isRelation column = true := by
  obtain ⟨step, hstep, hname⟩ := List.mem_filterMap.mp h
  rcases mem_build hstep with ⟨path, failure, rfl⟩ | ⟨name, relation, hrel, hloads⟩
  · cases hname
  · obtain rfl := Option.some.inj (hloads.name?_eq.symm.trans hname)
    exact isRelation_of_relation? hrel

theorem related_of_mem_build {depth : Nat} {entity target : Entity} {above path name : String}
    {pending : List String} {parentColumn : String} {relation : Relation} {load : EagerLoad}
    {steps : List LoadStep}
    (h : .related path name parentColumn relation target load steps ∈
      build schema loads depth entity above pending) :
    parentColumn = relation.parentJoinColumn entity.primaryKey ∧
      ∃ below, steps = build schema loads (depth + 1) target (path ++ ".") below := by
  rcases mem_build h with ⟨_, _, hfail⟩ | ⟨_, _, -, hloads⟩
  · cases hfail
  · cases hloads with
    | related below htarget => exact ⟨rfl, below, rfl⟩

theorem sublist_filterMap_map {α β γ : Type} {f : α → β} {g : β → Option γ} {key : α → γ}
    (h : ∀ a, g (f a) = none ∨ g (f a) = some (key a)) (l : List α) :
    ((l.map f).filterMap g).Sublist (l.map key) := by
  induction l with
  | nil => exact List.Sublist.slnil
  | cons a l ih =>
    rw [List.map_cons, List.map_cons, List.filterMap_cons]
    rcases h a with hnone | hsome
    · rw [hnone]
      exact ih.cons _
    · rw [hsome]
      exact ih.cons_cons _

/-- No two steps of a level load the same relation. -/
theorem nodup_names_build (depth : Nat) (entity : Entity) (above : String) (pending : List String) :
    (names (build schema loads depth entity above pending)).Nodup := by
  have hheads : (heads (pathsAt depth entity pending)).Nodup :=
    (Dict.ordered_ofList _).nodup_keys
  rw [← List.attach_map_subtype_val (heads (pathsAt depth entity pending))] at hheads
  refine hheads.sublist ?_
  rw [build]
  apply sublist_filterMap_map
  rintro ⟨name, hname⟩
  dsimp only
  split
  · exact Or.inl rfl
  · split
    · split
      · exact Or.inr rfl
      · exact Or.inl rfl
    · split
      · exact Or.inl rfl
      · exact Or.inr rfl

/-- What `build` puts before the names of a level. -/
def prefixOf (level : List String) : String := ((pathTo level).map (· ++ ".")).getD ""

theorem prefixOf_append (level : List String) (name : String) :
    prefixOf level ++ name = pathBelow (pathTo level) name := by
  unfold prefixOf pathBelow
  cases pathTo level <;> simp

theorem pathBelow_eq_prefixOf (level : List String) (name : String) :
    pathBelow (pathTo level) name ++ "." = prefixOf (level ++ [name]) := by
  rw [prefixOf, pathTo_concat]
  rfl

theorem mem_stepsAt_build {depth : Nat} {entity : Entity} {pending before level : List String}
    {step : LoadStep}
    (h : step ∈ stepsAt (build schema loads depth entity (prefixOf before) pending) level) :
    (∃ path failure, step = .fail path failure) ∨
      ∃ name parent relation, RelationAt schema.loadsTo entity level name parent relation ∧
        step.Loads schema loads (depth + level.length) parent relation name
          (pathBelow (pathTo (before ++ level)) name) := by
  induction level generalizing depth entity pending before with
  | nil =>
    rcases mem_build h with hfail | ⟨name, relation, hrel, hloads⟩
    · exact Or.inl hfail
    · rw [prefixOf_append] at hloads
      exact Or.inr ⟨name, entity, relation, ⟨rfl, hrel⟩, by simpa using hloads⟩
  | cons first rest ih =>
    obtain ⟨outer, houter, hstep⟩ := mem_stepsAt_cons.mp h
    rcases mem_build houter with ⟨path, failure, rfl⟩ | ⟨name, relation, hrel, houter⟩
    · simp [stepsBelow] at hstep
    rcases houter.stepsBelow_eq first with hnone | ⟨rfl, target, pending', htarget, hbuild⟩
    · simp [hnone] at hstep
    rw [hbuild, prefixOf_append, pathBelow_eq_prefixOf] at hstep
    rcases ih hstep with hfail | ⟨name, parent, last, hat, hloads⟩
    · exact Or.inl hfail
    · refine Or.inr ⟨name, parent, last, (relationAt_cons_iff hrel htarget).mpr hat, ?_⟩
      rw [List.append_assoc, Nat.add_assoc, Nat.add_comm 1] at hloads
      exact hloads

theorem mem_stepsAt_ofLoads {entity : Entity} {level : List String} {step : LoadStep}
    (h : step ∈ stepsAt (ofLoads schema loads entity) level) :
    (∃ path failure, step = .fail path failure) ∨
      ∃ name parent relation, RelationAt schema.loadsTo entity level name parent relation ∧
        step.Loads schema loads level.length parent relation name
          (pathBelow (pathTo level) name) := by
  have hroot : step ∈ stepsAt (build schema loads 0 entity (prefixOf [])
      (loads.keys.filter (· ≠ ""))) level := h
  have hstep := mem_stepsAt_build hroot
  rwa [Nat.zero_add] at hstep

/-! ### What is loaded for sure -/

theorem mem_heads {name : String} {paths : List String} :
    name ∈ heads paths ↔ ∃ path ∈ paths, headOf path = name := by
  rw [heads, Dict.mem_keys_ofList]
  simp

/-- A relation that heads a pending or default path is loaded. -/
theorem exists_mem_build {depth : Nat} {entity target : Entity} {above name : String}
    {pending : List String} (hname : name ∈ heads (pathsAt depth entity pending))
    {relation : Relation} (hrel : entity.relation? name = some relation)
    (htarget : schema.loadsTo entity relation = some target) :
    ∃ step ∈ build schema loads depth entity above pending,
      step.Loads schema loads depth entity relation name (above ++ name) :=
  ⟨_, mem_build_iff.mpr ⟨name, hname, .related hrel htarget⟩, .related _ htarget⟩

end Build

end LoadStep

end RestQuery
