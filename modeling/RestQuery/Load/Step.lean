import RestQuery.Plan
import RestQuery.Schema
import RestQuery.Text.Pieces

/-!
# What is loaded with the rows of an entity

The relations to load form a tree that depends on the schema and the plan alone, not on any row.
Its first level holds the relations that head a requested path or a default path of the entity; the
rest of each path belongs to the level below. Default paths are followed for three levels only, so
the tree is finite also where relations lead back to their entity. A path that the schema cannot
follow is a step that fails when its turn comes.
-/

namespace RestQuery

inductive LoadStep where
  | fail (path : String) (failure : Failure)
  /-- The owner of each row, found through a type column. -/
  | owner (path name typeColumn : String) (relation : Relation) (load : EagerLoad)
  | related (path name parentColumn : String) (relation : Relation) (entity : Entity)
    (load : EagerLoad) (steps : List LoadStep)

namespace LoadStep

/-- Default relations are followed at most this many levels deep. -/
def defaultDepth : Nat := 3

def headOf (path : String) : String :=
  match Text.cutFirst '.' path with
  | some (head, _) => head
  | none => path

def restBelow (name path : String) : Option String :=
  match Text.cutFirst '.' path with
  | some (head, rest) => if head = name then some rest else none
  | none => none

def heads (paths : List String) : List String :=
  (Dict.ofList (paths.map fun path => (headOf path, ()))).keys

def pathsAt (depth : Nat) (entity : Entity) (pending : List String) : List String :=
  pending ++ if depth < defaultDepth then entity.defaults else []

/-- The number of characters in the paths, each counted with an end. -/
def weight : List String → Nat
  | [] => 0
  | path :: paths => path.length + 1 + weight paths

theorem length_rest_lt {cs before after : List Char}
    (h : Text.cutFirstChars '.' cs = some (before, after)) : after.length < cs.length := by
  induction cs generalizing before with
  | nil => simp [Text.cutFirstChars] at h
  | cons c cs ih =>
    unfold Text.cutFirstChars at h
    split at h
    · simp only [Option.some.injEq, Prod.mk.injEq] at h
      simp [← h.2]
    · cases hc : Text.cutFirstChars '.' cs with
      | none => simp [hc] at h
      | some parts =>
        obtain ⟨b, a⟩ := parts
        simp only [hc, Option.map_some, Option.some.injEq, Prod.mk.injEq] at h
        have hb : Text.cutFirstChars '.' cs = some (b, after) := by rw [hc, h.2]
        have := ih hb
        simp only [List.length_cons]
        omega

theorem length_restBelow_lt {name path rest : String} (h : restBelow name path = some rest) :
    rest.length < path.length := by
  unfold restBelow Text.cutFirst at h
  cases hc : Text.cutFirstChars '.' path.toList with
  | none => simp [hc] at h
  | some parts =>
    obtain ⟨b, a⟩ := parts
    simp only [hc, Option.map_some] at h
    split at h
    · simp only [Option.some.injEq] at h
      have := length_rest_lt hc
      rw [← h, String.length_ofList, ← String.length_toList]
      exact this
    · simp at h

theorem weight_filterMap_restBelow_le (name : String) (paths : List String) :
    weight (paths.filterMap (restBelow name)) ≤ weight paths := by
  induction paths with
  | nil => simp [weight]
  | cons path paths ih =>
    cases h : restBelow name path with
    | none => simp only [List.filterMap_cons, h, weight]; omega
    | some rest =>
      have := length_restBelow_lt h
      simp only [List.filterMap_cons, h, weight]; omega

theorem weight_filterMap_restBelow_lt (name : String) {paths : List String} (h : paths ≠ []) :
    weight (paths.filterMap (restBelow name)) < weight paths := by
  cases paths with
  | nil => exact absurd rfl h
  | cons path paths =>
    have hle := weight_filterMap_restBelow_le name paths
    cases hr : restBelow name path with
    | none => simp only [List.filterMap_cons, hr, weight]; omega
    | some rest =>
      have := length_restBelow_lt hr
      simp only [List.filterMap_cons, hr, weight]; omega

theorem weight_append (paths more : List String) :
    weight (paths ++ more) = weight paths + weight more := by
  induction paths with
  | nil => simp [weight]
  | cons path paths ih => simp only [List.cons_append, weight, ih]; omega

theorem ne_nil_of_mem_heads {name : String} {paths : List String} (h : name ∈ heads paths) :
    paths ≠ [] := by
  intro hp
  simp [heads, hp, Dict.ofList, Dict.keys] at h

def defaultWeight : Dict Entity → Nat
  | [] => 0
  | (_, entity) :: rest => weight entity.defaults + defaultWeight rest

theorem weight_defaults_le {entities : Dict Entity} {name : String} {entity : Entity}
    (h : entities.get? name = some entity) : weight entity.defaults ≤ defaultWeight entities := by
  induction entities with
  | nil => simp [Dict.get?] at h
  | cons entry rest ih =>
    obtain ⟨k, e⟩ := entry
    unfold Dict.get? at h
    simp only [defaultWeight]
    split at h
    · simp only [Option.some.injEq] at h
      subst h
      omega
    · have := ih h
      omega

/-- What is left to load below a place: its pending paths and, while default relations are followed,
the default paths that can still come. -/
def budget (schema : Schema) (depth : Nat) (entity : Entity) (pending : List String) : Nat :=
  weight pending +
    if depth < defaultDepth then
      weight entity.defaults + (defaultDepth - 1 - depth) * defaultWeight schema.entities
    else 0

theorem budget_below_lt {schema : Schema} {depth : Nat} {entity target : Entity}
    {pending : List String} {name targetName : String}
    (hmem : name ∈ heads (pathsAt depth entity pending))
    (htarget : schema.entity? targetName = some target) :
    budget schema (depth + 1) target
        ((pathsAt depth entity pending).filterMap (restBelow name)) <
      budget schema depth entity pending := by
  have hlt := weight_filterMap_restBelow_lt name (ne_nil_of_mem_heads hmem)
  have hle : weight target.defaults ≤ defaultWeight schema.entities := weight_defaults_le htarget
  generalize (pathsAt depth entity pending).filterMap (restBelow name) = below at hlt ⊢
  unfold budget
  by_cases hd : depth < defaultDepth
  · simp only [pathsAt, hd, if_true, weight_append] at hlt ⊢
    by_cases hd' : depth + 1 < defaultDepth
    · have hs : defaultDepth - 1 - depth = (defaultDepth - 1 - (depth + 1)) + 1 := by omega
      simp only [hd', if_true, hs, Nat.add_mul]
      omega
    · simp only [hd', if_false]
      omega
  · have hd' : ¬ depth + 1 < defaultDepth := by omega
    simp only [pathsAt, hd, if_false, List.append_nil] at hlt
    simp only [hd, hd', if_false]
    omega

/-- The steps for the rows of `entity`, which lie `depth` relations below the root rows. The path
of a relation is its name after `above`; `pending` holds the requested paths below this place. -/
def build (schema : Schema) (loads : Dict EagerLoad) (depth : Nat) (entity : Entity)
    (above : String) (pending : List String) : List LoadStep :=
  (heads (pathsAt depth entity pending)).attach.map fun ⟨name, _⟩ =>
    let path := above ++ name
    match entity.relation? name with
    | none => .fail path (.unknownRelation entity.name name)
    | some relation =>
      let load := (loads.get? path).getD .empty
      if relation.kind = .morphTo then
        match relation.typeColumn with
        | some typeColumn => .owner path name typeColumn relation load
        | none => .fail path (.internal (.noTypeColumn name))
      else
        match _h : schema.entity? (relation.related.getD "") with
        | none => .fail path (.internal (.unregisteredRelated name (relation.related.getD "")))
        | some target =>
          .related path name (relation.parentJoinColumn entity.primaryKey) relation target load
            (build schema loads (depth + 1) target (path ++ ".")
              ((pathsAt depth entity pending).filterMap (restBelow name)))
termination_by budget schema depth entity pending
decreasing_by exact budget_below_lt ‹_› ‹_›

def ofLoads (schema : Schema) (loads : Dict EagerLoad) (entity : Entity) : List LoadStep :=
  build schema loads 0 entity "" (loads.keys.filter (· ≠ ""))

end LoadStep

end RestQuery
