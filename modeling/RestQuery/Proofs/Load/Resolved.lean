import Mathlib.Data.List.Sort
import RestQuery.Proofs.Expansion.Kept
import RestQuery.Proofs.Load.Failing

/-!
# What a request loads

A request loads exactly what it expands: filters and sorts of related rows are accepted on expanded
relations only. What it expands can be followed through the schema, so if the default paths can be
followed too, only the database can make its load fail.

The expanded paths are closed under prefixes, unless one of them begins with two empty segments: the
written path of these is the path of the root rows, which is no relation path.
-/

namespace RestQuery

open Text Schema Load

/-! ### The loads of a request -/

/-- With a path, some paths have the paths of all its beginnings. -/
def PrefixClosed (paths : List String) : Prop :=
  ∀ path ∈ paths, ∀ before above, before <+: pieces '.' path → pathTo before = some above →
    above ∈ paths

theorem Expansion.contains_eq_true_iff {e : Expansion} {path : String} :
    e.contains path = true ↔ path ∈ e.relationPaths := by
  simp [contains, relationPaths, Dict.contains, Option.isSome_iff_exists, ← Dict.mem_keys_iff,
    and_comm]

theorem Clauses.mem_relationPaths_of_check {clauses : Clauses} (h : clauses.check = .ok ())
    {path : String} (hpath : path ∈ clauses.filter.relationPaths.map Prod.fst ∨
      path ∈ clauses.sort.relationPaths.map Prod.fst) :
    path ∈ clauses.expand.expansion.relationPaths := by
  have hall : ∀ paths, unexpanded clauses.expand.expansion paths = none →
      ∀ path ∈ paths.map Prod.fst, path ∈ clauses.expand.expansion.relationPaths := by
    intro paths hnone path hpath
    obtain ⟨filed, hfiled, rfl⟩ := List.mem_map.mp hpath
    have hcontains := List.find?_eq_none.mp (Option.map_eq_none_iff.mp hnone) filed hfiled
    exact Expansion.contains_eq_true_iff.mp (by simpa using hcontains)
  unfold check at h
  split at h
  · cases h
  · next hfilters =>
    split at h
    · cases h
    · next hsorts =>
      rcases hpath with hpath | hpath
      · exact hall _ hfilters path hpath
      · exact hall _ hsorts path hpath

namespace Request

section Parsed

variable {handler : Handler} {entityName : String} {id : Option String} {ps : Parameters}
  {r : Request} (h : r.Parsed handler entityName id ps)

include h

theorem Parsed.ordered_relationPaths :
    r.clauses.expand.expansion.relationPaths.Pairwise (· < ·) := by
  rw [h.accepted.2]
  exact (Expansion.ordered_markAll _).filter _

theorem Parsed.loads_keys :
    r.apply.plan.loads.keys = r.clauses.expand.expansion.relationPaths := by
  have hbase : (Handler.basePlan r.entity id).loads = [] := by cases id <;> rfl
  have hordered : r.apply.plan.loads.Ordered := by
    rw [h.apply_plan]
    refine Clauses.ordered_apply _ _ ?_
    rw [hbase]
    exact Dict.ordered_nil
  refine List.Pairwise.eq_of_mem_iff hordered h.ordered_relationPaths fun path => ?_
  rw [h.apply_plan, Clauses.mem_keys_apply, hbase]
  constructor
  · rintro (hnil | hfilter | hsort | hexpand)
    · cases hnil
    · exact Clauses.mem_relationPaths_of_check h.checked (Or.inl hfilter)
    · exact Clauses.mem_relationPaths_of_check h.checked (Or.inr hsort)
    · exact hexpand
  · exact fun hexpand => Or.inr (Or.inr (Or.inr hexpand))

theorem Parsed.resolves_of_mem_relationPaths (hb : handler.schema.Built) {path : String}
    (hpath : path ∈ r.clauses.expand.expansion.relationPaths) :
    handler.schema.Resolves r.entity path := by
  have hschema : r.context.schema = handler.schema := congrArg Handler.schema h.handler_eq
  have hroot : ∃ name, handler.schema.entity? name = some r.entity := ⟨entityName, h.registered⟩
  have hfollowed : ∀ above name, above ++ [name] <+: pieces '.' path →
      ∃ parent relation, RelationAt handler.schema.loadsTo r.entity above name parent relation ∧
        (relation.related ≠ none → relation.related.bind handler.schema.entity? ≠ none) := by
    intro above name hbegin
    obtain ⟨item, hitem, hthrough⟩ := (h.mem_relationPaths.mp hpath).2
    obtain ⟨parent, relation, hat, htarget⟩ :=
      h.accepted.1.exists_relationAt ⟨item, hitem, hbegin.trans hthrough⟩
    rw [hschema] at hat htarget
    exact ⟨parent, relation, (hb.relationAt_iff hroot).mp hat, htarget⟩
  intro above name after hpieces
  obtain ⟨parent, relation, hat, htarget⟩ := hfollowed above name ⟨after, by simp [hpieces]⟩
  refine ⟨parent, relation, hat, ?_⟩
  by_cases hkind : relation.kind = .morphTo
  · refine Or.inl ⟨hkind, ?_⟩
    by_contra hafter
    -- a segment after a polymorphic relation would have no entity to belong to
    obtain ⟨next, rest, rfl⟩ := List.exists_cons_of_ne_nil hafter
    obtain ⟨parent', relation', hat', -⟩ :=
      hfollowed (above ++ [name]) next ⟨rest, by simp [hpieces]⟩
    obtain ⟨_, _, hlast, hloads⟩ := entityAt_concat.mp hat'.level
    obtain ⟨rfl, rfl⟩ := hat.unique hlast
    simp [loadsTo, hkind] at hloads
  · obtain ⟨parentName, hparent⟩ := exists_name_of_entityAt hroot hat.level
    obtain ⟨related, hrelated⟩ := hb.exists_related ⟨parentName, hparent⟩ hat.declared hkind
    obtain ⟨target, hregistered⟩ := Option.ne_none_iff_exists'.mp (htarget (by simp [hrelated]))
    refine Or.inr ⟨target, ?_⟩
    rw [loadsTo, if_neg hkind, hrelated, Option.getD_some]
    rwa [hrelated, Option.bind_some] at hregistered

/-- Only the path of two empty segments is missing among the expanded paths. -/
theorem Parsed.prefixClosed_iff :
    PrefixClosed r.clauses.expand.expansion.relationPaths ↔
      ∀ path ∈ r.clauses.expand.expansion.relationPaths, ¬ ["", ""] <+: pieces '.' path := by
  constructor
  · intro hclosed path hpath hbegin
    have hroot := hclosed path hpath ["", ""] rootPath hbegin rfl
    exact (h.mem_relationPaths.mp hroot).1 rfl
  · intro hnone path hpath before above hbegin habove
    have hundotted : ∀ s ∈ before, Undotted s := fun s hs =>
      undotted_of_mem_pieces (hbegin.subset hs)
    have hpieces : pieces '.' above = before := pieces_of_pathTo hundotted habove
    refine h.mem_relationPaths.mpr ⟨?_, ?_⟩
    · rintro rfl
      have hempty : before = ["", ""] := hpieces.symm.trans (by decide)
      exact hnone path hpath (hempty ▸ hbegin)
    · obtain ⟨item, hitem, hthrough⟩ := (h.mem_relationPaths.mp hpath).2
      exact ⟨item, hitem, hpieces ▸ hbegin.trans hthrough⟩

end Parsed

/-- An accepted request loads what it expands, along paths that can be followed from its entity, and
fails to load only with the failure of a statement. The loaded paths have the paths of all their
beginnings exactly if none begins with two empty segments. -/
theorem loads_resolved {handler : Handler} {entityName : String} {id : Option String}
    {ps : Parameters} {r : Request} (hb : handler.schema.Built)
    (hd : handler.schema.DefaultsResolve) (h : handler.parse entityName id ps = .ok r) :
    r.apply.plan.loads.keys = r.clauses.expand.expansion.relationPaths ∧
    (∀ path ∈ r.apply.plan.loads.keys, handler.schema.Resolves r.entity path) ∧
    (PrefixClosed r.apply.plan.loads.keys ↔
      ∀ path ∈ r.apply.plan.loads.keys, ¬ ["", ""] <+: pieces '.' path) ∧
    ∀ db sent rows failure sent',
      ((Load.run db handler.schema r.apply.plan.loads r.entity rows).run.run sent).run =
        (.error failure, sent') →
      (∃ fault, db sent' = .fault fault ∧ failure = fault.onStatement) ∧
        failure.kind ≠ .unknownResourceRelation ∧ failure.kind ≠ .internal := by
  have hparsed := parsed_of_parse h
  have hresolves : ∀ path ∈ r.apply.plan.loads.keys, handler.schema.Resolves r.entity path := by
    rw [hparsed.loads_keys]
    exact fun path => hparsed.resolves_of_mem_relationPaths hb
  refine ⟨hparsed.loads_keys, hresolves, ?_, ?_⟩
  · rw [hparsed.loads_keys]
    exact hparsed.prefixClosed_iff
  · intro db sent rows failure sent' hfail
    obtain ⟨fault, hdb, rfl⟩ :=
      failsByDatabase_run hb hd ⟨entityName, hparsed.registered⟩ hresolves rows sent _ sent' hfail
    have hkind := fault.kind_onStatement
    refine ⟨⟨fault, hdb, rfl⟩, ?_, ?_⟩
    · rintro hunknown
      simp [hunknown] at hkind
    · rintro hinternal
      simp [hinternal] at hkind

/-! ### Posts that reply to posts -/

def replyRelations : Entity :=
  ((Entity.ofTable "posts" "posts").addRelation "" (.hasOne "posts" "parent_id" "id")).addRelation
    "user" (.belongsTo "users" "user_id" "id")

def repliedEntity : Entity := { replyRelations with defaults := ["user"] }

def repliedSchema : Schema :=
  (Schema.empty.add repliedEntity).add (Entity.ofTable "users" "users")

def repliedHandler : Handler :=
  ⟨{ Settings.default with allow := .permissive }, repliedSchema, .default⟩

theorem built_repliedSchema : repliedSchema.Built := by
  have hrelations : replyRelations.Built :=
    ((Entity.built_ofTable _ _).addRelation _ (.hasOne _ _ _)).addRelation _ (.belongsTo _ _ _)
  have hposts : repliedEntity.Built := fun _ _ hrel => hrelations hrel
  exact (built_empty.add hposts).add (Entity.built_ofTable _ _)

theorem defaultsResolve_repliedSchema : repliedSchema.DefaultsResolve := by
  intro name entity hentity path hpath
  rcases eq_or_entity?_of_add hentity with rfl | hentity
  · cases hpath
  rcases eq_or_entity?_of_add hentity with rfl | hentity
  · obtain rfl := List.mem_singleton.mp hpath
    have hpieces : pieces '.' "user" = ["user"] := by decide
    have htarget : repliedSchema.loadsTo repliedEntity (.belongsTo "users" "user_id" "id") =
        some (Entity.ofTable "users" "users") := by cbv
    rw [Resolves, hpieces]
    exact .cons (by cbv) htarget follows_nil
  · cases hentity

/-- The users of the replies are loaded, along paths with all their beginnings. -/
theorem loads_resolved_of_replies :
    ∃ r, repliedHandler.parse "posts" none (.ofPairs [("expand", ".user")]) = .ok r ∧
      r.apply.plan.loads.keys = ["", ".user"] ∧ PrefixClosed r.apply.plan.loads.keys ∧
      repliedSchema.Resolves r.entity ".user" ∧
      ∀ db sent rows failure sent',
        ((Load.run db repliedSchema r.apply.plan.loads r.entity rows).run.run sent).run =
          (.error failure, sent') → ∃ fault, db sent' = .fault fault := by
  have hkeys : (repliedHandler.parse "posts" none (.ofPairs [("expand", ".user")])).toOption.map
      (fun r => r.apply.plan.loads.keys) = some ["", ".user"] := by
    decide +kernel
  obtain ⟨r, hparse, hloads⟩ := exists_ok_of_map_toOption hkeys
  obtain ⟨-, hresolves, hclosed, hfails⟩ :=
    loads_resolved built_repliedSchema defaultsResolve_repliedSchema hparse
  refine ⟨r, hparse, hloads, hclosed.mpr ?_, hresolves _ (by simp [hloads]), ?_⟩
  · rw [hloads]
    decide
  · intro db sent rows failure sent' hfail
    obtain ⟨⟨fault, hfault, -⟩, -⟩ := hfails db sent rows failure sent' hfail
    exact ⟨fault, hfault⟩

/-- The users of the replies to replies are loaded without the path of these replies. -/
theorem replies_of_replies_not_loaded :
    ∃ r, repliedHandler.parse "posts" none (.ofPairs [("expand", "..user")]) = .ok r ∧
      r.apply.plan.loads.keys = ["", "..user"] ∧ ["", ""] <+: pieces '.' "..user" ∧
      pathTo ["", ""] = some "." ∧ ¬ PrefixClosed r.apply.plan.loads.keys := by
  have hkeys : (repliedHandler.parse "posts" none (.ofPairs [("expand", "..user")])).toOption.map
      (fun r => r.apply.plan.loads.keys) = some ["", "..user"] := by
    decide +kernel
  obtain ⟨r, hparse, hloads⟩ := exists_ok_of_map_toOption hkeys
  have hbegin : ["", ""] <+: pieces '.' "..user" := by decide
  refine ⟨r, hparse, hloads, hbegin, rfl, fun hclosed => ?_⟩
  have hroot : "." ∈ r.apply.plan.loads.keys :=
    hclosed "..user" (by simp [hloads]) ["", ""] "." hbegin rfl
  simp [hloads] at hroot

end Request

end RestQuery
