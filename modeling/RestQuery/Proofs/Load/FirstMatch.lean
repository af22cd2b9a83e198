import RestQuery.Proofs.Load.Groups
import RestQuery.Proofs.Load.Shape

/-!
# The one row of a relation to one

Several of the rows that are returned for a relation to one may have the key of a row, and a request
may sort them. A relation that leads to one entity then attaches the first of them. A polymorphic
one collects its owners by their keys, where a later owner takes the place of an earlier one, so it
attaches the last.
-/

namespace RestQuery

open Sql Stitch Load

namespace LoadStep

/-- A step that attaches at most one row to each row, the columns that tie the two, and the name
under which it stands. -/
inductive ToOne : LoadStep → (name parentColumn column : String) → Prop
  | related {path name parentColumn : String} {relation : Relation} {target : Entity}
      {load : EagerLoad} {steps : List LoadStep} (hone : relation.kind.isToMany = false) :
      ToOne (.related path name parentColumn relation target load steps) name parentColumn
        relation.relatedJoinColumn
  | owner {path name typeColumn : String} {relation : Relation} {load : EagerLoad} :
      ToOne (.owner path name typeColumn relation load) name relation.foreignKey relation.localKey

/-- Whether the entity of the related row is named by the row itself. -/
def isOwner : LoadStep → Bool
  | .owner _ _ _ _ _ => true
  | _ => false

/-- Nothing that is written to the related rows takes the place of their key. -/
def KeepsKeys (schema : Schema) : LoadStep → Prop
  | .fail _ _ => True
  | .owner _ _ _ relation _ => ∀ {typeValue target}, schema.morph? typeValue = some target →
      target.isComputed relation.localKey = false
  | .related _ _ _ relation target _ steps =>
      target.isComputed relation.relatedJoinColumn = false ∧
        relation.relatedJoinColumn ∉ names steps

def chosen (step : LoadStep) (found : List Row) : Option Row :=
  if step.isOwner then found.getLast? else found.head?

end LoadStep

open LoadStep

namespace Load

/-- The rows that the statement for a row returned while a step ran, each with what is attached of
it. For a row that names no registered entity there is no statement. -/
inductive ReturnedFor (db : Database) (schema : Schema) (log : List Statement) (rows : List Row) :
    LoadStep → Row → List (Row × Row) → Prop
  | related {path name parentColumn : String} {relation : Relation} {target : Entity}
      {load : EagerLoad} {steps : List LoadStep} {row : Row} {children finished : List Row}
      {start middle finish : List Statement}
      (hfetched : Fetched db relation target load (distinctKeys parentColumn rows) start children
        middle)
      (hlevel : Yields (level target (runSteps db schema steps) children) middle finished finish)
      (hlog : finish <+: log) :
      ReturnedFor db schema log rows
        (.related path name parentColumn relation target load steps) row
        (children.zip (finished.map (detached relation.relatedJoinColumn)))
  | owner {path name typeColumn typeValue : String} {relation : Relation} {target : Entity}
      {load : EagerLoad} {row : Row} {found : List Row} {start finish : List Statement}
      (htype : typeValueAt typeColumn row = some typeValue)
      (htarget : schema.morph? typeValue = some target)
      (hfetched : Fetched db relation target load (distinctKeys relation.foreignKey
        ((rows.filter (typeValueAt typeColumn · = some typeValue)).map (·.insert name .null)))
        start found finish)
      (hlog : finish <+: log) :
      ReturnedFor db schema log rows (.owner path name typeColumn relation load) row
        (found.zip (found.map target.compute))
  | unnamed {path name typeColumn : String} {relation : Relation} {load : EagerLoad} {row : Row}
      (hnone : (typeValueAt typeColumn row).bind schema.morph? = none) :
      ReturnedFor db schema log rows (.owner path name typeColumn relation load) row []

/-- What is attached of the returned rows that have the key of a row, in the order in which they
were returned. -/
def matchesOf (parentColumn column : String) (related : List (Row × Row)) (row : Row) : List Row :=
  (belongingTo parentColumn column related row).map Prod.snd

section

variable {db : Database} {schema : Schema} {sent sent' log : List Statement} {rows out : List Row}
  {name typeColumn typeValue : String} {relation : Relation} {load : EagerLoad}

theorem matchesOf_zip {column : String} {key : Option String} {children finished : List Row}
    (f : Row → Row)
    (h : List.Forall₂ (fun child row => keyAt column row = keyAt column child) children finished)
    {parentColumn : String} {row : Row} (hkey : keyAt parentColumn row = key) :
    matchesOf parentColumn column (children.zip (finished.map f)) row =
      (matching column key finished).map f := by
  subst hkey
  unfold matchesOf belongingTo matching
  induction h with
  | nil => rfl
  | cons hkey _ ih =>
    rw [List.map_cons, List.zip_cons_cons, List.filter_cons, List.filter_cons, hkey]
    split
    · rw [List.map_cons, List.map_cons, ih]
    · exact ih

/-! ### Owners -/

theorem putOwners_insert_null (byRow : List Row) (row : Row) :
    putOwners name relation (owners relation.localKey byRow) typeValue
        ⟨some typeValue, row.insert name .null⟩ =
      ⟨some typeValue, row.insert name (((matching relation.localKey
        (keyAt relation.foreignKey (row.insert name .null)) byRow).getLast?).elim .null
          .object)⟩ := by
  rw [putOwners, if_pos rfl]
  unfold attachOwner
  rw [bind_get?_owners]
  cases (matching relation.localKey (keyAt relation.foreignKey (row.insert name .null))
    byRow).getLast? with
  | none => rfl
  | some owner => exact congrArg (Typed.mk _) (Dict.insert_insert_self ..)

variable {path : String}

/-- What a row finds among its owners, also if the relation is named like the column of its key:
then nothing is asked for. -/
theorem matching_fetched {target : Entity} {named found : List Row} {row : Row}
    (hcomputed : target.isComputed relation.localKey = false)
    (hfetched : Fetched db relation target load
      (distinctKeys relation.foreignKey (named.map (·.insert name .null))) sent found sent') :
    matching relation.localKey (keyAt relation.foreignKey (row.insert name .null))
        (found.map target.compute) =
      matchesOf relation.foreignKey relation.localKey (found.zip (found.map target.compute))
        row := by
  have hkeys : List.Forall₂ (fun owner owner' => keyAt relation.localKey owner' =
      keyAt relation.localKey owner) found (found.map target.compute) := by
    rw [List.forall₂_map_right_iff]
    exact List.forall₂_same.mpr fun owner _ => by rw [keyAt, Entity.get?_compute hcomputed, keyAt]
  by_cases hname : relation.foreignKey = name
  · have hnone : ∀ row ∈ named.map (·.insert name .null),
        keyAt relation.foreignKey row = none := by
      refine List.forall_mem_map.mpr fun row _ => ?_
      simp [hname, keyText]
    rw [distinctKeys_eq_nil_iff.mpr hnone] at hfetched
    rw [hfetched.eq_nil]
    rfl
  · have hkey : keyAt relation.foreignKey (row.insert name .null) =
        keyAt relation.foreignKey row :=
      keyAt_insert_of_ne row _ hname
    have hfound := matchesOf_zip id hkeys hkey.symm
    rw [List.map_id, List.map_id] at hfound
    exact hfound.symm

def Attaches (db : Database) (schema : Schema) (log : List Statement) (rows : List Row)
    (step : LoadStep) (name parentColumn column : String) (row row' : Row) : Prop :=
  ∃ related, ReturnedFor db schema log rows step row related ∧
    row' = row.insert name
      ((step.chosen (matchesOf parentColumn column related row)).elim .null .object)

/-- A row once the owners of some types are in place, as `P` says. -/
structure Placed (P : Row → Row → Prop) (name typeColumn : String) (done : List String)
    (row : Row) (t : Typed) : Prop where
  typeValue_eq : t.typeValue = typeValueAt typeColumn row
  placed : ∀ typeValue ∈ done, typeValueAt typeColumn row = some typeValue → P row t.row
  waiting : (∀ typeValue ∈ done, typeValueAt typeColumn row ≠ some typeValue) →
    t.row = row.insert name .null

variable {P : Row → Row → Prop} {done : List String}

theorem Placed.concat {row : Row} {t t' : Typed}
    (h : Placed P name typeColumn done row t) (htype : t'.typeValue = t.typeValue)
    (hplaced : typeValueAt typeColumn row = some typeValue → P row t'.row)
    (hkept : typeValueAt typeColumn row ≠ some typeValue → t'.row = t.row) :
    Placed P name typeColumn (done ++ [typeValue]) row t' := by
  refine ⟨htype.trans h.typeValue_eq, fun other hother hown => ?_, fun hwaiting => ?_⟩
  · by_cases hsame : typeValueAt typeColumn row = some typeValue
    · exact hplaced hsame
    · rw [hkept hsame]
      rcases List.mem_append.mp hother with hdone | hlast
      · exact h.placed other hdone hown
      · obtain rfl := List.mem_singleton.mp hlast
        exact absurd hown hsame
  · rw [hkept (hwaiting typeValue (by simp))]
    exact h.waiting fun other hother => hwaiting other (List.mem_append_left _ hother)

theorem Placed.waiting_of_fresh {row : Row} {t : Typed}
    (h : Placed P name typeColumn done row t) (hfresh : typeValue ∉ done)
    (htype : typeValueAt typeColumn row = some typeValue) :
    t.row = row.insert name .null := by
  refine h.waiting fun other hother hown => hfresh ?_
  obtain rfl := Option.some.inj (htype.symm.trans hown)
  exact hother

theorem filter_placed {typed : List Typed} (hfresh : typeValue ∉ done)
    (h : List.Forall₂ (Placed P name typeColumn done) rows typed) :
    (typed.filter (·.typeValue = some typeValue)).map Typed.row =
      (rows.filter (typeValueAt typeColumn · = some typeValue)).map (·.insert name .null) := by
  induction h with
  | nil => rfl
  | @cons row t rows typed hrow _ ih =>
    rw [List.filter_cons, List.filter_cons, hrow.typeValue_eq]
    by_cases htype : typeValueAt typeColumn row = some typeValue
    · rw [if_pos (by simpa using htype), if_pos (by simpa using htype), List.map_cons,
        List.map_cons, ih, hrow.waiting_of_fresh hfresh htype]
    · rw [if_neg (by simpa using htype), if_neg (by simpa using htype), ih]

section Owner

variable {step : LoadStep} (hstep : step = .owner path name typeColumn relation load)
  (hkeeps : step.KeepsKeys schema)

include hstep hkeeps

theorem placed_loadOwnersOf {typed typed' : List Typed}
    (h : Yields (loadOwnersOf db schema name relation load typed typeValue) sent typed' sent')
    (hlog : sent' <+: log) (hfresh : typeValue ∉ done)
    (hrows : List.Forall₂ (Placed (Attaches db schema log rows step name relation.foreignKey
      relation.localKey) name typeColumn done) rows typed) :
    List.Forall₂ (Placed (Attaches db schema log rows step name relation.foreignKey
      relation.localKey) name typeColumn (done ++ [typeValue])) rows typed' := by
  subst hstep
  cases htarget : schema.morph? typeValue with
  | none =>
    obtain ⟨rfl, -⟩ := (yields_loadOwnersOf_of_unnamed htarget).mp h
    refine hrows.imp fun row t hrow => hrow.concat rfl (fun htype => ?_) fun _ => rfl
    refine ⟨[], .unnamed (by rw [htype, Option.bind_some, htarget]), ?_⟩
    exact hrow.waiting_of_fresh hfresh htype
  | some target =>
    obtain ⟨found, hfetched, rfl⟩ := (yields_loadOwnersOf_iff htarget).mp h
    rw [filter_placed hfresh hrows] at hfetched
    rw [List.forall₂_map_right_iff]
    refine hrows.imp fun row t hrow => hrow.concat ?_ (fun htype => ?_) fun htype => ?_
    · unfold putOwners
      split <;> rfl
    · have ht : t = ⟨some typeValue, row.insert name .null⟩ := by
        rw [← htype, ← hrow.typeValue_eq, ← hrow.waiting_of_fresh hfresh htype]
      refine ⟨_, .owner htype htarget hfetched hlog, ?_⟩
      rw [ht, putOwners_insert_null, matching_fetched (hkeeps htarget) hfetched]
      rfl
    · rw [putOwners, if_neg (hrow.typeValue_eq ▸ htype)]

theorem placed_foldlM_loadOwnersOf {types : List String} {typed typed' : List Typed}
    (h : Yields (types.foldlM (loadOwnersOf db schema name relation load) typed) sent typed' sent')
    (hlog : sent' <+: log)
    (hrows : List.Forall₂ (Placed (Attaches db schema log rows step name relation.foreignKey
      relation.localKey) name typeColumn done) rows typed)
    (hnodup : (done ++ types).Nodup) :
    List.Forall₂ (Placed (Attaches db schema log rows step name relation.foreignKey
      relation.localKey) name typeColumn (done ++ types)) rows typed' := by
  induction types generalizing done typed sent with
  | nil =>
    obtain ⟨rfl, -⟩ := yields_pure.mp h
    rwa [List.append_nil]
  | cons type types ih =>
    rw [List.foldlM_cons] at h
    obtain ⟨next, middle, hfirst, hrest⟩ := yields_bind.mp h
    have hmiddle : middle <+: log := (prefix_of_yields
      (sendsOnly_foldlM (sendsOnly_loadOwnersOf path name typeColumn relation load) _ _)
      hrest).trans hlog
    have hfresh : type ∉ done := fun hmem =>
      (List.nodup_append.mp hnodup).2.2 type hmem type List.mem_cons_self rfl
    rw [List.append_cons] at hnodup ⊢
    exact ih hrest (placed_loadOwnersOf hstep hkeeps hfirst hmiddle hfresh hrows) hnodup

theorem attaches_loadOwners
    (h : Yields (loadOwners db schema name typeColumn relation load rows) sent out sent') :
    List.Forall₂ (Attaches db schema sent' rows step name relation.foreignKey relation.localKey)
      rows out := by
  unfold loadOwners at h
  obtain ⟨typed, middle, hyields, h⟩ := yields_bind.mp h
  obtain ⟨rfl, rfl⟩ := yields_pure.mp h
  have hstart : List.Forall₂ (Placed (Attaches db schema middle rows step name relation.foreignKey
      relation.localKey) name typeColumn []) rows (rows.map fun row =>
        Typed.mk (typeValueAt typeColumn row) (row.insert name .null)) := by
    rw [List.forall₂_map_right_iff]
    exact List.forall₂_same.mpr fun row _ => ⟨rfl, by simp, fun _ => rfl⟩
  have hplaced := placed_foldlM_loadOwnersOf hstep hkeeps hyields (List.prefix_refl _) hstart
    (Dict.ordered_ofList _).nodup_keys
  have hmem : ∀ row ∈ rows, ∀ typeValue, typeValueAt typeColumn row = some typeValue →
      typeValue ∈ typesOf (rows.map fun row =>
        Typed.mk (typeValueAt typeColumn row) (row.insert name .null)) := by
    intro row hrow typeValue htype
    rw [typesOf, Dict.mem_keys_ofList]
    simp only [List.map_filterMap, List.mem_filterMap, List.mem_map]
    exact ⟨_, ⟨row, hrow, rfl⟩, by simp [htype]⟩
  rw [List.forall₂_map_right_iff]
  refine ((List.forall₂_and_left _ _).mpr ⟨hmem, hplaced⟩).imp fun row t hrow => ?_
  obtain ⟨hmem, hrow⟩ := hrow
  cases htype : typeValueAt typeColumn row with
  | some typeValue => exact hrow.placed typeValue (hmem typeValue htype) htype
  | none =>
    subst hstep
    refine ⟨[], .unnamed (by rw [htype, Option.bind_none]), ?_⟩
    exact hrow.waiting (by simp [htype])

end Owner

theorem attaches_runStep {step : LoadStep} {parentColumn column : String}
    (hone : step.ToOne name parentColumn column) (hkeeps : step.KeepsKeys schema)
    (h : Yields (runStep db schema step rows) sent out sent') :
    List.Forall₂ (Attaches db schema sent' rows step name parentColumn column) rows out := by
  cases hone with
  | owner =>
    rw [runStep] at h
    exact attaches_loadOwners rfl hkeeps h
  | related hone =>
    obtain ⟨children, middle, finished, hfetched, hlevel, rfl⟩ := runStep_related h
    rw [attach_eq, List.forall₂_map_right_iff]
    refine List.forall₂_same.mpr fun row _ =>
      ⟨_, .related hfetched hlevel (List.prefix_refl _), ?_⟩
    have hkeys : List.Forall₂ (fun child row => keyAt _ row = keyAt _ child) children finished :=
      (level_keys hlevel).imp fun child row hkey => by
        rw [hkey _ hkeeps.1, keyAfter, if_neg hkeeps.2]
    rw [matchesOf_zip _ hkeys rfl, hone]
    cases matching _ (keyAt parentColumn row) finished <;> rfl

/-- A row with a key that some returned rows have gets one of them, and is otherwise as it was: the
first, unless its type names the entity and the last one that has the key differs from it. -/
theorem first_match_attached_iff {step : LoadStep} {parentColumn column : String}
    (hone : step.ToOne name parentColumn column) (hkeeps : step.KeepsKeys schema)
    (h : Yields (runStep db schema step rows) sent out sent') :
    List.Forall₂ (fun row row' => ∃ related, ReturnedFor db schema sent' rows step row related ∧
        row' = row.insert name
          ((step.chosen (matchesOf parentColumn column related row)).elim .null .object) ∧
        ∀ first, (matchesOf parentColumn column related row).head? = some first →
          (row'.get? name = some (.object first) ↔ (step.isOwner = true →
            (matchesOf parentColumn column related row).getLast? = some first)))
      rows out := by
  refine (attaches_runStep hone hkeeps h).imp fun row row' ⟨pairs, hreturned, hrow⟩ =>
    ⟨pairs, hreturned, hrow, fun first hfirst => ?_⟩
  rw [hrow, Dict.get?_insert_self]
  unfold chosen
  cases step.isOwner with
  | false => simp [hfirst]
  | true =>
    cases hlast : (matchesOf parentColumn column pairs row).getLast? with
    | none =>
      rw [List.getLast?_eq_none_iff] at hlast
      rw [hlast] at hfirst
      cases hfirst
    | some last => simp

end

/-! ### An image and two posts with one name -/

def imageEntity : Entity :=
  ((Entity.ofTable "images" "images").addRelation "post" (.belongsTo "posts" "slug" "slug")
    ).addRelation "owner" (.morphTo "slug" "type" "slug")

def imageSchema : Schema := (Schema.empty.add imageEntity).add (Entity.ofTable "posts" "posts")

def imageRow : Row := [("id", .ofNat 1), ("slug", .text "lean"), ("type", .text "posts")]

def olderPost : Row := [("id", .ofNat 10), ("slug", .text "lean")]

def newerPost : Row := [("id", .ofNat 11), ("slug", .text "lean")]

def sortedLoad : EagerLoad := { EagerLoad.empty with orders := [⟨"id", false⟩] }

def sluggedDatabase : Database := .replaying [.rows [olderPost, newerPost]]

def slugStep : LoadStep :=
  .related "post" "post" "slug" (.belongsTo "posts" "slug" "slug") (Entity.ofTable "posts" "posts")
    sortedLoad []

theorem first_match_attached_iff_of_image :
    ∃ pairs log, slugStep.ToOne "post" "slug" "slug" ∧ slugStep.KeepsKeys imageSchema ∧
      Yields (runStep sluggedDatabase imageSchema slugStep [imageRow]) []
        [imageRow.insert "post" (.object olderPost)] log ∧
      ReturnedFor sluggedDatabase imageSchema log [imageRow] slugStep imageRow pairs ∧
      (matchesOf "slug" "slug" pairs imageRow).head? = some olderPost := by
  have hone : slugStep.ToOne "post" "slug" "slug" := .related rfl
  have hkeeps : slugStep.KeepsKeys imageSchema := ⟨rfl, by simp [names]⟩
  have hyields : Yields (runStep sluggedDatabase imageSchema slugStep [imageRow]) []
      [imageRow.insert "post" (.object olderPost)]
      [.ofRelation (.belongsTo "posts" "slug" "slug") (Entity.ofTable "posts" "posts") sortedLoad
        [.text "lean"]] := by
    unfold Yields
    cbv
  cases first_match_attached_iff hone hkeeps hyields with
  | cons hrow _ =>
    obtain ⟨pairs, hreturned, hattached, -⟩ := hrow
    refine ⟨pairs, _, hone, hkeeps, hyields, hreturned, ?_⟩
    have hshown := congrArg (fun row => Dict.get? row "post") hattached
    simp only [Dict.get?_insert_self, Option.some.injEq] at hshown
    change Json.object olderPost =
      (matchesOf "slug" "slug" pairs imageRow).head?.elim .null .object at hshown
    cases hfirst : (matchesOf "slug" "slug" pairs imageRow).head? with
    | none => simp [hfirst] at hshown
    | some first => simpa [hfirst, eq_comm] using hshown

/-- Both posts have the name that the image has, and the image gets the later one as its owner. -/
theorem later_owner_attached :
    ∃ image statement,
      Yields (Load.run sluggedDatabase imageSchema [("owner", sortedLoad)] imageEntity [imageRow])
        [] [image] [statement] ∧
      statement = .ofRelation (.morphTo "slug" "type" "slug") (Entity.ofTable "posts" "posts")
        sortedLoad [.text "lean"] ∧
      sluggedDatabase [statement] = .rows [olderPost, newerPost] ∧
      [olderPost, newerPost].map (fun post => sameKey (keyAt "slug" imageRow) (keyAt "slug" post)) =
        [true, true] ∧
      image.get? "owner" = some (.object newerPost) ∧
      newerPost.get? "id" ≠ olderPost.get? "id" := by
  refine ⟨imageRow.insert "owner" (.object newerPost), _, ?_, rfl, rfl, by decide +kernel, rfl, ?_⟩
  · unfold Yields
    cbv
  · simp [newerPost, olderPost, Dict.get?, Json.ofNat]

end Load

end RestQuery
