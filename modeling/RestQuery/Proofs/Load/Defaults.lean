import RestQuery.Proofs.Expansion.Kept
import RestQuery.Proofs.Load.Agreement

/-!
# Keys of loaded relations

Default relations are loaded on the rows of every request, but a restricted projection keeps only
what the request itself asks for and expands. A default relation finds its keys exactly if the
projection keeps them for one of these reasons. If it does, the rows of the restricted projection
receive what all columns would give them.
-/

namespace RestQuery.Request

open LoadStep

variable {handler : Handler} {entityName : String} {id : Option String} {ps : Parameters}
  {r : Request}

/-- A relation that is loaded on a restricted level, expanded or by default, finds the columns that
it reads exactly if the level keeps them, and then it attaches the same to restricted rows as to
rows with more columns. -/
theorem loaded_keys_named_iff (h : handler.parse entityName id ps = .ok r) {level : List String}
    {step : LoadStep}
    (hstep : step ∈ stepsAt (ofLoads handler.schema r.apply.plan.loads r.entity) level)
    {name : String} (hname : step.name? = some name) :
    ∃ parent relation, RelationAt handler.schema.loadsTo r.entity level name parent relation ∧
      step.readColumns = relation.parentKeys parent.primaryKey ∧
      ∀ columns, r.apply.plan.restriction level = some columns →
        ((∀ key ∈ step.readColumns, Names parent.table columns key) ↔
          ∀ key ∈ step.readColumns, r.Kept level parent key) ∧
        ((∀ key ∈ step.readColumns, r.Kept level parent key) →
          ∀ (db : Database) (rows rows' : List Row),
            List.Forall₂ (Agrees (Names parent.table columns)) rows rows' →
            RunsAlike (List.Forall₂ (Agrees (· = name)))
              (Load.runStep db handler.schema step rows)
              (Load.runStep db handler.schema step rows')) := by
  have hparsed := parsed_of_parse h
  rcases mem_stepsAt_ofLoads hstep with ⟨path, failure, rfl⟩ | ⟨_, parent, relation, hat, hloads⟩
  · cases hname
  obtain rfl := Option.some.inj (hname.symm.trans hloads.name?_eq)
  refine ⟨parent, relation, hat, hloads.readColumns_eq, fun columns hrestricted => ?_⟩
  have hkept : ∀ key, Names parent.table columns key ↔ r.Kept level parent key := fun key =>
    hparsed.names_iff_kept hat.eq_root hrestricted
  refine ⟨by simp only [hkept], fun hkeys db rows rows' hrows => ?_⟩
  have hread : ∀ key ∈ step.readColumns, Names parent.table columns key := fun key hkey =>
    (hkept key).mpr (hkeys key hkey)
  refine (Load.runStep_alike hread hrows).imp fun out out' hout => hout.imp fun row row' hrow => ?_
  rintro column rfl
  exact hrow column (Or.inr hname)

/-! ### Posts that always show their user -/

def signedPostEntity : Entity :=
  { (Entity.ofTable "posts" "posts").addRelation "user" (.belongsTo "users" "user_id" "id") with
    defaults := ["user"] }

def signedHandler : Handler :=
  ⟨.default, (Schema.empty.add signedPostEntity).add (.ofTable "users" "users"), .default⟩

theorem exists_userStep (loads : Dict EagerLoad) (pending : List String) :
    ∃ step ∈ build signedHandler.schema loads 0 signedPostEntity "" pending,
      step.name? = some "user" ∧ step.readColumns = ["user_id"] := by
  have hhead : "user" ∈ heads (pathsAt 0 signedPostEntity pending) :=
    mem_heads.mpr ⟨"user", by simp [pathsAt, defaultDepth, signedPostEntity], by decide⟩
  have hrel : signedPostEntity.relation? "user" = some (.belongsTo "users" "user_id" "id") := by cbv
  have htarget : signedHandler.schema.loadsTo signedPostEntity
      (.belongsTo "users" "user_id" "id") = some (.ofTable "users" "users") := by cbv
  have hloaded : ∃ step ∈ build signedHandler.schema loads 0 signedPostEntity "" pending,
      step.Loads signedHandler.schema loads 0 signedPostEntity (.belongsTo "users" "user_id" "id")
        "user" ("" ++ "user") := exists_mem_build hhead hrel htarget
  obtain ⟨step, hstep, hloads⟩ := hloaded
  exact ⟨step, hstep, hloads.name?_eq, hloads.readColumns_eq⟩

theorem exists_signedRequest {ps : Parameters} {columns : List String}
    (h : (signedHandler.parse "posts" none ps).toOption.map (fun r => r.apply.plan.restriction []) =
      some (some columns)) :
    ∃ r step, signedHandler.parse "posts" none ps = .ok r ∧ r.entity = signedPostEntity ∧
      r.apply.plan.restriction [] = some columns ∧
      step ∈ stepsAt (ofLoads signedHandler.schema r.apply.plan.loads r.entity) [] ∧
      step.name? = some "user" ∧ step.readColumns = ["user_id"] := by
  obtain ⟨r, hparse, hrestricted⟩ := exists_ok_of_map_toOption h
  have hentity : signedHandler.schema.entity? "posts" = some signedPostEntity := by cbv
  have hr : r.entity = signedPostEntity :=
    Option.some.inj ((parsed_of_parse hparse).registered.symm.trans hentity)
  obtain ⟨step, hstep, hname, hread⟩ := exists_userStep r.apply.plan.loads
    (r.apply.plan.loads.keys.filter (· ≠ ""))
  exact ⟨r, step, hparse, hr, hrestricted, by rw [hr]; exact hstep, hname, hread⟩

/-- The user of a post is found where the request selects the column that refers to it. -/
theorem loaded_keys_named_iff_of_user :
    ∃ r step, signedHandler.parse "posts" none (.ofPairs [("select", "title,user_id")]) = .ok r ∧
      step ∈ stepsAt (ofLoads signedHandler.schema r.apply.plan.loads r.entity) [] ∧
      step.name? = some "user" ∧ step.readColumns = ["user_id"] ∧
      r.apply.plan.restriction [] = some ["title", "user_id"] ∧
      r.Kept [] signedPostEntity "user_id" := by
  have hselected : (signedHandler.parse "posts" none
      (.ofPairs [("select", "title,user_id")])).toOption.map
        (fun r => r.apply.plan.restriction []) = some (some ["title", "user_id"]) := by
    decide +kernel
  obtain ⟨r, step, hparse, hentity, hrestricted, hstep, hname, hread⟩ :=
    exists_signedRequest hselected
  obtain ⟨parent, relation, hat, -, hkeys⟩ := loaded_keys_named_iff hparse hstep hname
  have hparent : parent = signedPostEntity := (hat.eq_root rfl).trans hentity
  have hnamed : ∀ key ∈ step.readColumns, Names parent.table ["title", "user_id"] key := by
    intro key hkey
    rw [hread] at hkey
    obtain rfl := List.mem_singleton.mp hkey
    exact ⟨"user_id", by simp, by rw [hparent]; decide⟩
  have hkept : r.Kept [] parent "user_id" :=
    (hkeys _ hrestricted).1.mp hnamed "user_id" (by simp [hread])
  rw [hparent] at hkept
  exact ⟨r, step, hparse, hstep, hname, hread, hrestricted, hkept⟩

/-- With only the title selected, the user of a post cannot be found. -/
theorem default_user_not_found :
    ∃ r step columns, signedHandler.parse "posts" none (.ofPairs [("select", "title")]) = .ok r ∧
      "user" ∈ r.entity.defaults ∧
      step ∈ stepsAt (ofLoads signedHandler.schema r.apply.plan.loads r.entity) [] ∧
      step.name? = some "user" ∧ r.apply.plan.restriction [] = some columns ∧
      "user_id" ∈ step.readColumns ∧ ¬ Names r.entity.table columns "user_id" := by
  have hselected : (signedHandler.parse "posts" none
      (.ofPairs [("select", "title")])).toOption.map
        (fun r => r.apply.plan.restriction []) = some (some ["title"]) := by
    decide +kernel
  obtain ⟨r, step, hparse, hentity, hrestricted, hstep, hname, hread⟩ :=
    exists_signedRequest hselected
  refine ⟨r, step, _, hparse, ?_, hstep, hname, hrestricted, by simp [hread], ?_⟩
  · rw [hentity]
    exact List.mem_singleton_self _
  · rw [hentity]
    rintro ⟨c, hc, hcolumn⟩
    obtain rfl := List.mem_singleton.mp hc
    exact absurd hcolumn (by decide)

end RestQuery.Request
