import Mathlib.Data.List.Sort
import RestQuery.Proofs.Load.Failing
import RestQuery.Proofs.Load.Sent

/-!
# How deep a load goes

Three things lead a load downwards: the paths of the plan below a prefix, what the level above left
of its own paths, and, on the first levels, the default paths of each entity. The defaults bring new
paths while a load descends, also through relations that lead in a circle. But a path that is handed
down loses its first segment, and the defaults of the third level are the last to begin. So the
depth at which a path ends never grows, and the load ends within a number of levels that only the
paths of the plan and the default paths determine, whatever the database answers.
-/

namespace RestQuery

open Text Sql Schema LoadStep ExpandClause

/-! ### The bound -/

def segmentCount (path : String) : Nat := (pieces '.' path).length

def deepest (paths : List String) : Nat := (paths.map segmentCount).foldr max 0

def Schema.defaultPaths (schema : Schema) : List String :=
  schema.entities.flatMap fun entry => entry.2.defaults

/-- The depth of the requested paths, or that of default paths which begin on the last level that
follows them. -/
def depthBound (requested defaults : List String) : Nat :=
  if defaults = [] then deepest requested
  else max (deepest requested) (defaultDepth - 1 + deepest defaults)

theorem deepest_le_iff {paths : List String} {n : Nat} :
    deepest paths ≤ n ↔ ∀ path ∈ paths, segmentCount path ≤ n := by
  induction paths with
  | nil => simp [deepest]
  | cons path paths ih =>
    rw [deepest, List.map_cons, List.foldr_cons, max_le_iff, List.forall_mem_cons]
    exact and_congr_right fun _ => ih

theorem deepest_congr {paths paths' : List String} (h : ∀ path, path ∈ paths ↔ path ∈ paths') :
    deepest paths = deepest paths' := by
  apply le_antisymm
  · exact deepest_le_iff.mpr fun path hpath => deepest_le_iff.mp le_rfl path ((h path).mp hpath)
  · exact deepest_le_iff.mpr fun path hpath => deepest_le_iff.mp le_rfl path ((h path).mpr hpath)

theorem depthBound_congr (requested : List String) {defaults defaults' : List String}
    (h : ∀ path, path ∈ defaults ↔ path ∈ defaults') :
    depthBound requested defaults = depthBound requested defaults' := by
  have hnil : defaults = [] ↔ defaults' = [] := by
    simp only [List.eq_nil_iff_forall_not_mem, h]
  simp only [depthBound, hnil, deepest_congr h]

theorem le_depthBound_of_requested {requested defaults : List String} {path : String}
    (h : path ∈ requested) : segmentCount path ≤ depthBound requested defaults := by
  have hdeepest := deepest_le_iff.mp le_rfl path h
  unfold depthBound
  split
  · exact hdeepest
  · exact hdeepest.trans (le_max_left _ _)

theorem le_depthBound_of_default {requested defaults : List String} {path : String}
    (h : path ∈ defaults) :
    defaultDepth - 1 + segmentCount path ≤ depthBound requested defaults := by
  have hdeepest := deepest_le_iff.mp le_rfl path h
  rw [depthBound, if_neg (List.ne_nil_of_mem h)]
  exact (Nat.add_le_add_left hdeepest _).trans (le_max_right _ _)

theorem Schema.mem_defaultPaths {schema : Schema} {name path : String} {entity : Entity}
    (hentity : schema.entity? name = some entity) (hpath : path ∈ entity.defaults) :
    path ∈ schema.defaultPaths :=
  List.mem_flatMap.mpr ⟨(name, entity), Dict.mem_of_get? hentity, hpath⟩

namespace LoadStep

/-! ### Levels as a loader finds them -/

/-- The paths of the plan below a prefix. -/
def requestedBelow (loads : Dict EagerLoad) (above : String) : List String :=
  (loads.keys.filterMap (stripLead above)).filter (· ≠ "")

def stepFor (schema : Schema) (loads : Dict EagerLoad) (entity : Entity) (above name : String)
    (steps : List LoadStep) : LoadStep :=
  match entity.relation? name with
  | none => .fail (above ++ name) (.unknownRelation entity.name name)
  | some relation =>
    let load := (loads.get? (above ++ name)).getD .empty
    if relation.kind = .morphTo then
      match relation.typeColumn with
      | some typeColumn => .owner (above ++ name) name typeColumn relation load
      | none => .fail (above ++ name) (.internal (.noTypeColumn name))
    else
      match schema.entity? (relation.related.getD "") with
      | none =>
        .fail (above ++ name) (.internal (.unregisteredRelated name (relation.related.getD "")))
      | some target =>
        .related (above ++ name) name (relation.parentJoinColumn entity.primaryKey) relation target
          load steps

/-- The steps of a level, found anew on each level: the paths of the plan below the prefix of the
level, the remainders that the level above hands down, and the default paths. There is no result if
more levels lie below each other than `levels`. -/
def gatherWithin (schema : Schema) (loads : Dict EagerLoad) :
    Nat → Nat → Entity → String → List String → Option (List LoadStep)
  | 0, _, _, _, _ => none
  | levels + 1, depth, entity, above, remainders =>
    let paths := pathsAt depth entity (remainders ++ requestedBelow loads above)
    (heads paths).mapM fun name =>
      match (entity.relation? name).bind (schema.loadsTo entity) with
      | none => some (stepFor schema loads entity above name [])
      | some target =>
        (gatherWithin schema loads levels (depth + 1) target (above ++ name ++ ".")
          (paths.filterMap (restBelow name))).map (stepFor schema loads entity above name)

variable {schema : Schema} {loads : Dict EagerLoad}

theorem build_eq (depth : Nat) (entity : Entity) (above : String) (pending : List String) :
    build schema loads depth entity above pending =
      (heads (pathsAt depth entity pending)).map fun name =>
        stepFor schema loads entity above name
          (((entity.relation? name).bind (schema.loadsTo entity)).elim [] fun target =>
            build schema loads (depth + 1) target (above ++ name ++ ".")
              ((pathsAt depth entity pending).filterMap (restBelow name))) := by
  rw [build]
  conv_rhs =>
    rw [← List.attach_map_subtype_val (heads (pathsAt depth entity pending)), List.map_map]
  refine List.map_congr_left fun head _ => ?_
  obtain ⟨name, hname⟩ := head
  dsimp only [Function.comp]
  unfold stepFor
  cases hrel : entity.relation? name with
  | none => rfl
  | some relation =>
    rw [Option.bind_some]
    by_cases hkind : relation.kind = .morphTo
    · cases htype : relation.typeColumn <;> simp only [hkind, htype, if_true]
    · simp only [loadsTo, hkind, if_false]
      cases htarget : schema.entity? (relation.related.getD "") with
      | none => split <;> simp_all
      | some target => split <;> simp_all

theorem heads_congr {paths paths' : List String} (h : ∀ path, path ∈ paths ↔ path ∈ paths') :
    heads paths = heads paths' := by
  refine List.Pairwise.eq_of_mem_iff (Dict.ordered_ofList _) (Dict.ordered_ofList _) fun name => ?_
  simp only [mem_heads, h]

theorem mem_pathsAt_congr {pending pending' : List String}
    (h : ∀ path, path ∈ pending ↔ path ∈ pending') (depth : Nat) (entity : Entity) (path : String) :
    path ∈ pathsAt depth entity pending ↔ path ∈ pathsAt depth entity pending' := by
  simp only [pathsAt, List.mem_append, h]

theorem undotted_of_mem_heads {name : String} {paths : List String} (h : name ∈ heads paths) :
    Undotted name := by
  obtain ⟨path, -, rfl⟩ := mem_heads.mp h
  obtain ⟨rest, hpieces⟩ := exists_pieces_eq_headOf path
  exact undotted_of_mem_pieces (hpieces ▸ List.mem_cons_self ..)

theorem restBelow_dotted {name : String} (h : Undotted name) (rest : String) :
    restBelow name (name ++ "." ++ rest) = some rest := by
  simp [restBelow, cutFirst_dotted h]

theorem segmentCount_of_restBelow {name path rest : String} (h : restBelow name path = some rest) :
    segmentCount path = segmentCount rest + 1 := by
  rw [segmentCount, pieces_of_restBelow h, List.length_cons, segmentCount]

theorem mem_requestedBelow {above rest : String} :
    rest ∈ requestedBelow loads above ↔ above ++ rest ∈ loads.keys ∧ rest ≠ "" := by
  have hstrip : ∀ key, stripLead above key = some rest ↔ above ++ rest = key := by
    intro key
    rw [stripLead_eq_some_iff, eq_comm]
  simp [requestedBelow, hstrip]

/-- What a level leaves of its paths holds all paths of the plan below the prefix of the next. -/
theorem mem_remainders_of_requestedBelow {depth : Nat} {entity : Entity} {above name rest : String}
    {remainders : List String} (hname : Undotted name)
    (h : rest ∈ requestedBelow loads (above ++ name ++ ".")) :
    rest ∈ (pathsAt depth entity (remainders ++ requestedBelow loads above)).filterMap
      (restBelow name) := by
  obtain ⟨hkey, -⟩ := mem_requestedBelow.mp h
  refine List.mem_filterMap.mpr ⟨name ++ "." ++ rest, ?_, restBelow_dotted hname rest⟩
  refine List.mem_append_left _ (List.mem_append_right _ (mem_requestedBelow.mpr ⟨?_, ?_⟩))
  · simpa only [String.append_assoc] using hkey
  · intro hnil
    have hdot : '.' ∈ (name ++ "." ++ rest).toList := by simp
    simp [hnil] at hdot

theorem mapM_eq_some_map {α β : Type} {f : α → Option β} {g : α → β} {as : List α}
    (h : ∀ a ∈ as, f a = some (g a)) : as.mapM f = some (as.map g) := by
  induction as with
  | nil => rfl
  | cons a as ih =>
    have hrest := ih fun b hb => h b (List.mem_cons_of_mem a hb)
    rw [List.mapM_cons, h a (List.mem_cons_self ..), hrest]
    rfl

/-! ### No path ends below the bound -/

/-- The paths that wait on a level, and those that can still begin below it, end at most so deep. -/
structure EndsBy (schema : Schema) (bound depth : Nat) (entity : Entity) (pending : List String) :
    Prop where
  pending : ∀ path ∈ pending, depth + segmentCount path ≤ bound
  own : ∀ path ∈ entity.defaults, defaultDepth - 1 + segmentCount path ≤ bound
  registered : ∀ path ∈ schema.defaultPaths, defaultDepth - 1 + segmentCount path ≤ bound

section EndsBy

variable {bound depth : Nat} {entity : Entity} {pending : List String}

theorem EndsBy.paths (h : EndsBy schema bound depth entity pending) :
    ∀ path ∈ pathsAt depth entity pending, depth + segmentCount path ≤ bound := by
  intro path hpath
  rcases List.mem_append.mp hpath with hpath | hpath
  · exact h.pending path hpath
  · split at hpath
    · have hown := h.own path hpath
      omega
    · cases hpath

theorem EndsBy.head (h : EndsBy schema bound depth entity pending) {name : String}
    (hname : name ∈ heads (pathsAt depth entity pending)) : depth + 1 ≤ bound := by
  obtain ⟨path, hpath, -⟩ := mem_heads.mp hname
  obtain ⟨rest, hpieces⟩ := exists_pieces_eq_headOf path
  have hends := h.paths path hpath
  have hcount : segmentCount path = rest.length + 1 := by
    rw [segmentCount, hpieces, List.length_cons]
  omega

/-- A path that is handed down ends where it ended, and new ones begin no deeper than before. -/
theorem EndsBy.below (h : EndsBy schema bound depth entity pending) {relation : Relation}
    {target : Entity} (htarget : schema.loadsTo entity relation = some target) (name : String) :
    EndsBy schema bound (depth + 1) target
      ((pathsAt depth entity pending).filterMap (restBelow name)) := by
  refine ⟨fun rest hrest => ?_, fun path hpath => ?_, h.registered⟩
  · obtain ⟨path, hpath, hbelow⟩ := List.mem_filterMap.mp hrest
    have hends := h.paths path hpath
    have hcount := segmentCount_of_restBelow hbelow
    omega
  · obtain ⟨targetName, hregistered⟩ := exists_name_of_loadsTo htarget
    exact h.registered path (mem_defaultPaths hregistered hpath)

/-- With as many levels as the bound allows, gathering them level by level gives all steps. -/
theorem gatherWithin_eq_some {levels : Nat} {above : String} {remainders : List String}
    (h : EndsBy schema bound depth entity pending)
    (hpending : ∀ path, path ∈ pending ↔ path ∈ remainders ++ requestedBelow loads above)
    (hdepth : depth ≤ bound) (hlevels : bound < levels + depth) :
    gatherWithin schema loads levels depth entity above remainders =
      some (build schema loads depth entity above pending) := by
  induction levels generalizing depth entity above pending remainders with
  | zero => omega
  | succ levels ih =>
    have hpaths := mem_pathsAt_congr hpending depth entity
    rw [gatherWithin, build_eq, ← heads_congr hpaths]
    refine mapM_eq_some_map fun name hname => ?_
    cases hnext : (entity.relation? name).bind (schema.loadsTo entity) with
    | none => rfl
    | some target =>
      obtain ⟨relation, -, htarget⟩ := Option.bind_eq_some_iff.mp hnext
      have hbelow := h.head hname
      have hremain : ∀ rest, rest ∈ (pathsAt depth entity pending).filterMap (restBelow name) ↔
          rest ∈ (pathsAt depth entity (remainders ++ requestedBelow loads above)).filterMap
            (restBelow name) ++ requestedBelow loads (above ++ name ++ ".") := by
        -- the paths of the plan below the prefix are among the remainders already
        intro rest
        rw [List.mem_append, or_iff_left_of_imp
          (mem_remainders_of_requestedBelow (undotted_of_mem_heads hname))]
        simp only [List.mem_filterMap, hpaths]
      have hgathered := ih (h.below htarget name) hremain hbelow (by omega)
      simp only [hgathered, Option.map_some, Option.elim_some]

end EndsBy

theorem Made.path_eq {depth : Nat} {parent : Entity} {above name : String} {pending : List String}
    {step : LoadStep} (h : Made schema loads depth parent above pending name step) :
    step.path = above ++ name := by
  cases h <;> rfl

/-- The path of a step has a segment more than there are levels above it. -/
theorem segmentCount_pathBelow {before : List String} (hbefore : ∀ s ∈ before, Undotted s)
    {name : String} (hname : Undotted name) :
    segmentCount (pathBelow (pathTo before) name) = before.length + 1 := by
  have hall : ∀ s ∈ before ++ [name], Undotted s :=
    List.forall_mem_append.mpr ⟨hbefore, List.forall_mem_singleton.mpr hname⟩
  rw [segmentCount, pieces_of_pathTo hall (pathTo_concat before name), List.length_append,
    List.length_singleton]

theorem segmentCount_path_le {bound : Nat} {entity : Entity} {pending before level : List String}
    {step : LoadStep} (hbefore : ∀ s ∈ before, Undotted s)
    (hends : EndsBy schema bound before.length entity pending)
    (h : step ∈ stepsAt (build schema loads before.length entity (prefixOf before) pending) level) :
    segmentCount step.path ≤ bound := by
  induction level generalizing entity pending before with
  | nil =>
    obtain ⟨name, hname, hmade⟩ := mem_build_iff.mp h
    rw [hmade.path_eq, prefixOf_append,
      segmentCount_pathBelow hbefore (undotted_of_mem_heads hname)]
    exact hends.head hname
  | cons first rest ih =>
    obtain ⟨outer, houter, hstep⟩ := mem_stepsAt_cons.mp h
    obtain ⟨name, hname, hmade⟩ := mem_build_iff.mp houter
    cases hmade with
    | @related relation target hrel htarget =>
      rw [stepsBelow] at hstep
      split at hstep
      · have hundotted : ∀ s ∈ before ++ [name], Undotted s :=
          List.forall_mem_append.mpr
            ⟨hbefore, List.forall_mem_singleton.mpr (undotted_of_mem_heads hname)⟩
        have hlength : (before ++ [name]).length = before.length + 1 := by simp
        refine ih hundotted (hlength ▸ hends.below htarget name) ?_
        rw [hlength, ← pathBelow_eq_prefixOf, ← prefixOf_append]
        exact hstep
      · simp at hstep
    | _ => simp [stepsBelow] at hstep

theorem endsBy_depthBound (schema : Schema) (loads : Dict EagerLoad) (root : Entity) :
    EndsBy schema (depthBound loads.keys (root.defaults ++ schema.defaultPaths)) 0 root
      (loads.keys.filter (· ≠ "")) := by
  refine ⟨fun path hpath => ?_, fun path hpath => ?_, fun path hpath => ?_⟩
  · rw [Nat.zero_add]
    exact le_depthBound_of_requested (List.mem_filter.mp hpath).1
  · exact le_depthBound_of_default (List.mem_append_left _ hpath)
  · exact le_depthBound_of_default (List.mem_append_right _ hpath)

end LoadStep

namespace Load

/-- A load ends within as many levels as its bound says and one more, on which nothing is left to
load, whatever the database answers. Every relation that it loads lies within the bound, and so does
every relation for whose rows it asks. The bound is that of the plan and the schema, to which the
defaults of a registered root entity add nothing. -/
theorem gathered_within_depthBound (schema : Schema) (loads : Dict EagerLoad) (root : Entity) :
    gatherWithin schema loads (depthBound loads.keys (root.defaults ++ schema.defaultPaths) + 1) 0
        root "" [] = some (ofLoads schema loads root) ∧
    (∀ level, ∀ step ∈ stepsAt (ofLoads schema loads root) level,
      segmentCount step.path ≤ depthBound loads.keys (root.defaults ++ schema.defaultPaths)) ∧
    (∀ db rows sent, ∃ more,
      ((Load.run db schema loads root rows).run.run sent).run.2 = sent ++ more ∧
      ∀ statement ∈ more, ∃ path, AsksAt schema loads root path statement ∧
        segmentCount path ≤ depthBound loads.keys (root.defaults ++ schema.defaultPaths)) ∧
    ∀ name, schema.entity? name = some root →
      depthBound loads.keys (root.defaults ++ schema.defaultPaths) =
        depthBound loads.keys schema.defaultPaths := by
  have hends := endsBy_depthBound schema loads root
  have hbound : ∀ level, ∀ step ∈ stepsAt (ofLoads schema loads root) level,
      segmentCount step.path ≤ depthBound loads.keys (root.defaults ++ schema.defaultPaths) :=
    fun level step hstep => by
      have hroot : step ∈ stepsAt (build schema loads ([] : List String).length root (prefixOf [])
          (loads.keys.filter (· ≠ ""))) level := hstep
      exact segmentCount_path_le (by simp) hends hroot
  refine ⟨?_, hbound, ?_, ?_⟩
  · refine gatherWithin_eq_some hends (fun path => ?_) (Nat.zero_le _) (by omega)
    rw [List.nil_append, mem_requestedBelow, List.mem_filter]
    simp
  · intro db rows sent
    obtain ⟨more, hsent, hmore⟩ := @sendsOnly_run db schema loads root rows sent
    refine ⟨more, hsent, fun statement hstatement => ?_⟩
    obtain ⟨level, step, hstep, hasks⟩ := hmore statement hstatement
    exact ⟨step.path, asksAt_path hstep hasks, hbound level step hstep⟩
  · intro name hregistered
    refine depthBound_congr _ fun path => ?_
    rw [List.mem_append, or_iff_right_of_imp]
    exact mem_defaultPaths hregistered

end Load

end RestQuery
