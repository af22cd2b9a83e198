import RestQuery.Proofs.Load.Depth
import RestQuery.Proofs.Load.Join

/-!
# Each relation is asked for once

A load asks for the rows of a relation once for all rows of a level, and of a polymorphic relation
once for each type that these rows name. The account of a load lists what it asks, each with the
answer, whether the load succeeds or a statement fails. No relation path and type stands twice in
it, and those that can stand in it are known before any row is.
-/

namespace RestQuery

open Text Sql Schema Load LoadStep ExpandClause

/-! ### Where a run ends -/

/-- A run that starts after the statements of `sent` ends after those of `sent'`, whether it returns
or fails. -/
def Ends {α : Type} (x : Run α) (sent sent' : List Statement) : Prop :=
  (x.run.run sent).run.2 = sent'

section Ends

variable {α β : Type} {sent sent' : List Statement}

theorem ends_pure {a : α} : Ends (pure a) sent sent' ↔ sent = sent' := Iff.rfl

theorem ends_throw {failure : Failure} : Ends (throw failure : Run α) sent sent' ↔ sent = sent' :=
  Iff.rfl

theorem Yields.ends {x : Run α} {a : α} (h : Yields x sent a sent') : Ends x sent sent' :=
  congrArg Prod.snd h

theorem ends_bind {x : Run α} {f : α → Run β} :
    Ends (x >>= f) sent sent' ↔
      (∃ a middle, Yields x sent a middle ∧ Ends (f a) middle sent') ∨
        ∃ failure, (x.run.run sent).run = (.error failure, sent') := by
  unfold Ends Yields
  rw [run_bind]
  cases (x.run.run sent).run with
  | mk result middle => cases result <;> simp

theorem ends_bind_pure {x : Run α} {g : α → β} :
    Ends (x >>= fun a => pure (g a)) sent sent' ↔ Ends x sent sent' := by
  unfold Ends
  rw [run_bind]
  cases (x.run.run sent).run with
  | mk result middle => cases result <;> rfl

theorem ends_ask {db : Database} {statement : Statement} :
    Ends (db.ask statement) sent sent' ↔ sent' = sent ++ [statement] := by
  have hask : ((db.ask statement).run.run sent).run.2 = sent ++ [statement] := by
    obtain ⟨more, hsent, rfl⟩ := @sends_ask (· = [statement]) db statement rfl sent
    exact hsent
  rw [Ends, hask, eq_comm]

end Ends

/-! ### The account of a load -/

/-- A statement by which a load asks for the rows of a relation: that of a name on the rows of a
level and, where it is polymorphic, for one type. -/
structure Ask where
  level : List String
  name : String
  typeValue : Option String
  statement : Statement
  answer : Answer

namespace Ask

def segments (a : Ask) : List String := a.level ++ [a.name]

def path (a : Ask) : String := pathBelow (pathTo a.level) a.name

def place (a : Ask) : List String × Option String := (a.segments, a.typeValue)

end Ask

def Logged (db : Database) : List Statement → List Ask → Prop
  | _, [] => True
  | sent, a :: asked =>
    a.answer = db (sent ++ [a.statement]) ∧ Logged db (sent ++ [a.statement]) asked

theorem logged_append {db : Database} {sent : List Statement} {asked more : List Ask} :
    Logged db sent (asked ++ more) ↔
      Logged db sent asked ∧ Logged db (sent ++ asked.map Ask.statement) more := by
  induction asked generalizing sent with
  | nil => simp [Logged]
  | cons a asked ih =>
    rw [List.cons_append, Logged, Logged, ih, List.map_cons, List.append_assoc,
      List.singleton_append, and_assoc]

/-- The rows of a level, given those of the level `base`: they were answered for the relation that
leads to the level. -/
inductive LevelRows (base : List String) (rows : List Row) (asked : List Ask) :
    List String → List Row → Prop
  | own : LevelRows base rows asked base rows
  | below {a : Ask} {children : List Row} (ha : a ∈ asked) (htype : a.typeValue = none)
      (hanswer : a.answer = .rows children) : LevelRows base rows asked a.segments children

def TypeFound (base : List String) (rows : List Row) (asked : List Ask) (level : List String)
    (typeColumn typeValue : String) : Prop :=
  ∃ levelRows, LevelRows base rows asked level levelRows ∧
    ∃ row ∈ levelRows, typeValueAt typeColumn row = some typeValue

namespace Ask

/-- The statement is one by which a step asks for the rows of its relation. Rows of a type are asked
for only if it is registered and `found`. -/
inductive For (schema : Schema) (found : String → String → Prop) (a : Ask) : LoadStep → Prop
  | owner {path typeColumn typeValue : String} {relation : Relation} {load : EagerLoad}
      {target : Entity} {keys : List Value} (htype : a.typeValue = some typeValue)
      (htarget : schema.morph? typeValue = some target) (hfound : found typeColumn typeValue)
      (hkeys : keys ≠ []) (hstatement : a.statement = .ofRelation relation target load keys) :
      For schema found a (.owner path a.name typeColumn relation load)
  | related {path parentColumn : String} {relation : Relation} {load : EagerLoad} {target : Entity}
      {steps : List LoadStep} {keys : List Value} (htype : a.typeValue = none) (hkeys : keys ≠ [])
      (hstatement : a.statement = .ofRelation relation target load keys) :
      For schema found a (.related path a.name parentColumn relation target load steps)

variable {schema : Schema} {found found' : String → String → Prop} {a : Ask} {step : LoadStep}

theorem For.imp (h : a.For schema found step)
    (himp : ∀ typeColumn typeValue, found typeColumn typeValue → found' typeColumn typeValue) :
    a.For schema found' step := by
  cases h with
  | owner htype htarget hfound hkeys hstatement =>
    exact .owner htype htarget (himp _ _ hfound) hkeys hstatement
  | related htype hkeys hstatement => exact .related htype hkeys hstatement

theorem For.name?_eq (h : a.For schema found step) : step.name? = some a.name := by
  cases h <;> rfl

end Ask

theorem TypeFound.mono {base : List String} {rows rows' : List Row} {asked asked' : List Ask}
    {level : List String} {typeColumn typeValue : String}
    (h : TypeFound base rows asked level typeColumn typeValue) (hasked : asked ⊆ asked')
    (hrows : ∀ row ∈ rows, typeValueAt typeColumn row = some typeValue →
      ∃ row' ∈ rows', typeValueAt typeColumn row' = some typeValue) :
    TypeFound base rows' asked' level typeColumn typeValue := by
  obtain ⟨levelRows, hlevel, row, hrow, htype⟩ := h
  cases hlevel with
  | own => exact ⟨rows', .own, hrows row hrow htype⟩
  | below ha hnone hanswer => exact ⟨_, .below (hasked ha) hnone hanswer, row, hrow, htype⟩

/-- The rows that are answered for a relation are the rows of the level below it. -/
theorem TypeFound.below {base : List String} {name : String} {rows children : List Row}
    {statement : Statement} {asked : List Ask} {level : List String} {typeColumn typeValue : String}
    (h : TypeFound (base ++ [name]) children asked level typeColumn typeValue) :
    TypeFound base rows (⟨base, name, none, statement, .rows children⟩ :: asked) level typeColumn
      typeValue := by
  obtain ⟨levelRows, hlevel, hfound⟩ := h
  cases hlevel with
  | own => exact ⟨children, .below (List.mem_cons_self ..) rfl rfl, hfound⟩
  | below ha htype hanswer =>
    exact ⟨levelRows, .below (List.mem_cons_of_mem _ ha) htype hanswer, hfound⟩

/-- What a run asks for on the rows of a level and on those below it. -/
structure Accounts (db : Database) (schema : Schema) (base : List String) (steps : List LoadStep)
    (rows : List Row) (sent sent' : List Statement) (asked : List Ask) : Prop where
  sent_eq : sent' = sent ++ asked.map Ask.statement
  logged : Logged db sent asked
  nodup : (asked.map Ask.place).Nodup
  asks : ∀ a ∈ asked, ∃ inner step, a.level = base ++ inner ∧ step ∈ stepsAt steps inner ∧
    a.For schema (TypeFound base rows asked a.level) step

namespace LoadStep

theorem exists_head_of_mem_stepsAt {steps : List LoadStep} {inner : List String} {step : LoadStep}
    {name : String} (h : step ∈ stepsAt steps inner) (hname : step.name? = some name) :
    ∃ head tail, inner ++ [name] = head :: tail ∧ head ∈ names steps := by
  cases inner with
  | nil => exact ⟨name, [], rfl, List.mem_filterMap.mpr ⟨step, h, hname⟩⟩
  | cons head rest =>
    refine ⟨head, rest ++ [name], rfl, ?_⟩
    obtain ⟨first, hfirst, hstep⟩ := mem_stepsAt_cons.mp h
    cases first with
    | related path own parentColumn relation target load steps =>
      rw [stepsBelow] at hstep
      split at hstep
      · next hown => exact List.mem_filterMap.mpr ⟨_, hfirst, congrArg some hown⟩
      · simp at hstep
    | _ => simp [stepsBelow] at hstep

/-- On each level below a step the relations have different names, none of them with a dot. -/
inductive WellNamed : LoadStep → Prop
  | fail (path : String) (failure : Failure) : WellNamed (.fail path failure)
  | owner (path name typeColumn : String) (relation : Relation) (load : EagerLoad) :
      WellNamed (.owner path name typeColumn relation load)
  | related (path name parentColumn : String) (relation : Relation) (target : Entity)
      (load : EagerLoad) {steps : List LoadStep} (hnodup : (names steps).Nodup)
      (hundotted : ∀ name ∈ names steps, Undotted name)
      (hsteps : ∀ step ∈ steps, WellNamed step) :
      WellNamed (.related path name parentColumn relation target load steps)

variable {schema : Schema} {loads : Dict EagerLoad}

theorem undotted_of_mem_names_build {depth : Nat} {entity : Entity} {above name : String}
    {pending : List String} (h : name ∈ names (build schema loads depth entity above pending)) :
    Undotted name := by
  obtain ⟨step, hstep, hname⟩ := List.mem_filterMap.mp h
  obtain ⟨head, hhead, hmade⟩ := mem_build_iff.mp hstep
  cases hmade with
  | owner | related =>
    obtain rfl := Option.some.inj hname
    exact undotted_of_mem_heads hhead
  | _ => cases hname

theorem wellNamed_of_mem_build {depth : Nat} {entity : Entity} {above : String}
    {pending : List String} {step : LoadStep}
    (h : step ∈ build schema loads depth entity above pending) : step.WellNamed := by
  -- the steps below a step are built with a smaller budget
  induction hn : budget schema depth entity pending using Nat.strongRecOn
    generalizing depth entity above pending step with
  | ind n ih =>
    obtain ⟨name, hname, hmade⟩ := mem_build_iff.mp h
    cases hmade with
    | related hrel htarget =>
      obtain ⟨targetName, htargetName⟩ := exists_name_of_loadsTo htarget
      refine .related _ _ _ _ _ _ (nodup_names_build ..) (fun _ => undotted_of_mem_names_build)
        fun below hbelow => ?_
      exact ih _ (hn ▸ budget_below_lt hname htargetName) hbelow rfl
    | owner => exact .owner ..
    | _ => exact .fail ..

theorem undotted_of_mem_stepsAt {steps : List LoadStep} {inner : List String} {step : LoadStep}
    {name : String} (hundotted : ∀ name ∈ names steps, Undotted name)
    (hsteps : ∀ step ∈ steps, step.WellNamed) (h : step ∈ stepsAt steps inner)
    (hname : step.name? = some name) : ∀ s ∈ inner ++ [name], Undotted s := by
  induction inner generalizing steps with
  | nil =>
    have hmem : name ∈ names steps := List.mem_filterMap.mpr ⟨step, h, hname⟩
    simpa using hundotted name hmem
  | cons head rest ih =>
    obtain ⟨_, _, hcons, hhead⟩ := exists_head_of_mem_stepsAt h hname
    obtain ⟨rfl, -⟩ := List.cons.inj hcons
    obtain ⟨first, hfirst, hstep⟩ := mem_stepsAt_cons.mp h
    refine List.forall_mem_cons.mpr ⟨hundotted _ hhead, ?_⟩
    cases hsteps first hfirst with
    | related path own parentColumn relation target load hnodup hbelow hwell =>
      rw [stepsBelow] at hstep
      split at hstep
      · exact ih hbelow hwell hstep
      · simp at hstep
    | _ => simp [stepsBelow] at hstep

end LoadStep

/-! ### Accounts are kept -/

namespace Accounts

variable {db : Database} {schema : Schema} {base : List String} {rows : List Row}
  {sent sent' : List Statement}

theorem nil (db : Database) (schema : Schema) (base : List String) (steps : List LoadStep)
    (rows : List Row) (sent : List Statement) :
    Accounts db schema base steps rows sent sent [] :=
  ⟨(List.append_nil sent).symm, trivial, List.nodup_nil, by simp⟩

theorem single {step : LoadStep} {name : String} {typeValue : Option String} {statement : Statement}
    (hfor : Ask.For schema (TypeFound base rows [⟨base, name, typeValue, statement,
      db (sent ++ [statement])⟩] base)
      ⟨base, name, typeValue, statement, db (sent ++ [statement])⟩ step) :
    Accounts db schema base [step] rows sent (sent ++ [statement])
      [⟨base, name, typeValue, statement, db (sent ++ [statement])⟩] := by
  refine ⟨rfl, ⟨rfl, trivial⟩, List.nodup_singleton _, fun a ha => ?_⟩
  obtain rfl := List.mem_singleton.mp ha
  exact ⟨[], step, (List.append_nil base).symm, List.mem_singleton_self step, hfor⟩

theorem mono {steps more : List LoadStep} {rows' : List Row} {asked : List Ask}
    (h : Accounts db schema base steps rows' sent sent' asked)
    (hsteps : ∀ inner, stepsAt steps inner ⊆ stepsAt more inner)
    (hrows : ∀ row' ∈ rows', ∃ row ∈ rows, ∀ typeColumn, TypedFrom typeColumn row row') :
    Accounts db schema base more rows sent sent' asked := by
  refine ⟨h.sent_eq, h.logged, h.nodup, fun a ha => ?_⟩
  obtain ⟨inner, step, hlevel, hstep, hfor⟩ := h.asks a ha
  refine ⟨inner, step, hlevel, hsteps inner hstep, hfor.imp fun typeColumn typeValue hfound => ?_⟩
  refine hfound.mono (List.Subset.refl _) fun row' hrow' htype => ?_
  obtain ⟨row, hrow, htyped⟩ := hrows row' hrow'
  exact ⟨row, hrow, htyped _ _ htype⟩

theorem append {steps : List LoadStep} {middle : List Statement} {first second : List Ask}
    (hfirst : Accounts db schema base steps rows sent middle first)
    (hsecond : Accounts db schema base steps rows middle sent' second)
    (hdisjoint : (first.map Ask.place).Disjoint (second.map Ask.place)) :
    Accounts db schema base steps rows sent sent' (first ++ second) := by
  obtain rfl := hfirst.sent_eq
  refine ⟨?_, logged_append.mpr ⟨hfirst.logged, hsecond.logged⟩, ?_, fun a ha => ?_⟩
  · rw [hsecond.sent_eq, List.map_append, List.append_assoc]
  · rw [List.map_append]
    exact hfirst.nodup.append hsecond.nodup hdisjoint
  · have hmono : ∀ {part : List Ask}, part ⊆ first ++ second → ∀ typeColumn typeValue,
        TypeFound base rows part a.level typeColumn typeValue →
        TypeFound base rows (first ++ second) a.level typeColumn typeValue :=
      fun hpart _ _ hfound => hfound.mono hpart fun row hrow htype => ⟨row, hrow, htype⟩
    rcases List.mem_append.mp ha with ha | ha
    · obtain ⟨inner, step, hlevel, hstep, hfor⟩ := hfirst.asks a ha
      exact ⟨inner, step, hlevel, hstep, hfor.imp (hmono (List.subset_append_left ..))⟩
    · obtain ⟨inner, step, hlevel, hstep, hfor⟩ := hsecond.asks a ha
      exact ⟨inner, step, hlevel, hstep, hfor.imp (hmono (List.subset_append_right ..))⟩

/-- What is asked for below a level lies below one of its relations. -/
theorem exists_segments_eq {steps : List LoadStep} {asked : List Ask}
    (h : Accounts db schema base steps rows sent sent' asked) {a : Ask} (ha : a ∈ asked) :
    ∃ head tail, a.segments = base ++ head :: tail ∧ head ∈ names steps := by
  obtain ⟨inner, step, hlevel, hstep, hfor⟩ := h.asks a ha
  obtain ⟨head, tail, hcons, hhead⟩ := exists_head_of_mem_stepsAt hstep hfor.name?_eq
  exact ⟨head, tail, by rw [Ask.segments, hlevel, List.append_assoc, hcons], hhead⟩

theorem disjoint {step : LoadStep} {steps : List LoadStep} {rows' : List Row}
    {start finish : List Statement} {first second : List Ask}
    (hfirst : Accounts db schema base [step] rows sent sent' first)
    (hsecond : Accounts db schema base steps rows' start finish second)
    (hnodup : (names (step :: steps)).Nodup) :
    (first.map Ask.place).Disjoint (second.map Ask.place) := by
  intro place hplace hplace'
  obtain ⟨a, ha, rfl⟩ := List.mem_map.mp hplace
  obtain ⟨b, hb, heq⟩ := List.mem_map.mp hplace'
  obtain ⟨head, tail, hsegments, hmem⟩ := hfirst.exists_segments_eq ha
  obtain ⟨head', tail', hsegments', hmem'⟩ := hsecond.exists_segments_eq hb
  have hcons : base ++ head' :: tail' = base ++ head :: tail :=
    hsegments'.symm.trans ((congrArg Prod.fst heq).trans hsegments)
  obtain ⟨rfl, -⟩ := List.cons.inj (List.append_cancel_left hcons)
  have hnames : names (step :: steps) = names [step] ++ names steps :=
    List.filterMap_append (l := [step])
  rw [hnames] at hnodup
  exact List.disjoint_of_nodup_append hnodup hmem hmem'

/-- A step asks once, and then for what lies below its relation. -/
theorem below {path name parentColumn : String} {relation : Relation} {target : Entity}
    {load : EagerLoad} {steps : List LoadStep} {keys : List Value} {children : List Row}
    {asked : List Ask} (hkeys : keys ≠ [])
    (hanswer : db (sent ++ [.ofRelation relation target load keys]) = .rows children)
    (h : Accounts db schema (base ++ [name]) steps children
      (sent ++ [.ofRelation relation target load keys]) sent' asked) :
    Accounts db schema base [.related path name parentColumn relation target load steps] rows sent
      sent' (⟨base, name, none, .ofRelation relation target load keys, .rows children⟩ ::
        asked) := by
  refine ⟨?_, ⟨hanswer.symm, h.logged⟩, ?_, ?_⟩
  · rw [h.sent_eq, List.map_cons, List.append_assoc, List.singleton_append]
  · refine List.nodup_cons.mpr ⟨fun hmem => ?_, h.nodup⟩
    obtain ⟨a, ha, heq⟩ := List.mem_map.mp hmem
    obtain ⟨head, tail, hsegments, -⟩ := h.exists_segments_eq ha
    have hlonger : base ++ [name] ++ head :: tail = base ++ [name] :=
      hsegments.symm.trans (congrArg Prod.fst heq)
    simp at hlonger
  · refine List.forall_mem_cons.mpr ⟨⟨[], _, (List.append_nil base).symm,
      List.mem_singleton_self _, .related rfl hkeys rfl⟩, fun a ha => ?_⟩
    obtain ⟨inner, step, hlevel, hstep, hfor⟩ := h.asks a ha
    refine ⟨name :: inner, step, by simp [hlevel], ?_, hfor.imp fun _ _ hfound => ?_⟩
    · refine mem_stepsAt_cons.mpr ⟨_, List.mem_singleton_self _, ?_⟩
      simpa [stepsBelow] using hstep
    · exact hfound.below

end Accounts

namespace Load

variable {db : Database} {schema : Schema} {base : List String} {sent sent' : List Statement}

theorem ends_loadOwnersOf {name typeValue : String} {relation : Relation} {load : EagerLoad}
    {typed : List Typed}
    (h : Ends (loadOwnersOf db schema name relation load typed typeValue) sent sent') :
    sent' = sent ∨ ∃ target keys, schema.morph? typeValue = some target ∧ keys ≠ [] ∧
      sent' = sent ++ [.ofRelation relation target load keys] := by
  unfold loadOwnersOf at h
  split at h
  · exact .inl (ends_pure.mp h).symm
  · next target htarget =>
    dsimp only at h
    split at h
    · exact .inl (ends_pure.mp h).symm
    · next hkeys =>
      refine .inr ⟨target, _, htarget, by simpa using hkeys, ?_⟩
      exact ends_ask.mp (ends_bind_pure.mp h)

theorem accounts_loadOwnersOf (base : List String) (path : String)
    {name typeColumn typeValue : String} {relation : Relation} {load : EagerLoad} {rows : List Row}
    {typed : List Typed}
    (hfound : ∃ row ∈ rows, typeValueAt typeColumn row = some typeValue)
    (h : Ends (loadOwnersOf db schema name relation load typed typeValue) sent sent') :
    ∃ asked, Accounts db schema base [.owner path name typeColumn relation load] rows sent sent'
      asked ∧ ∀ a ∈ asked, a.typeValue = some typeValue := by
  rcases ends_loadOwnersOf h with rfl | ⟨target, keys, htarget, hkeys, rfl⟩
  · exact ⟨[], .nil .., by simp⟩
  · exact ⟨_, .single (.owner rfl htarget ⟨rows, .own, hfound⟩ hkeys rfl), by simp⟩

/-- The owners of a type are asked for at most once. -/
theorem accounts_foldOwners (path : String) {name typeColumn : String} {relation : Relation}
    {load : EagerLoad} {rows : List Row} {types : List String} (hnodup : types.Nodup)
    (hfound : ∀ typeValue ∈ types, ∃ row ∈ rows, typeValueAt typeColumn row = some typeValue)
    {typed : List Typed}
    (h : Ends (types.foldlM (loadOwnersOf db schema name relation load) typed) sent sent') :
    ∃ asked, Accounts db schema base [.owner path name typeColumn relation load] rows sent sent'
      asked ∧ ∀ a ∈ asked, ∃ typeValue ∈ types, a.typeValue = some typeValue := by
  induction types generalizing typed sent with
  | nil =>
    obtain rfl := ends_pure.mp h
    exact ⟨[], .nil .., by simp⟩
  | cons typeValue types ih =>
    obtain ⟨hown, hlater⟩ := List.nodup_cons.mp hnodup
    obtain ⟨hfirst, hrest⟩ := List.forall_mem_cons.mp hfound
    rw [List.foldlM_cons] at h
    rcases ends_bind.mp h with ⟨typed', middle, hyields, hends⟩ | ⟨failure, hfail⟩
    · obtain ⟨first, hfirst, hvalue⟩ :=
        accounts_loadOwnersOf base path hfirst hyields.ends
      obtain ⟨second, hsecond, hvalues⟩ := ih hlater hrest hends
      refine ⟨first ++ second, hfirst.append hsecond ?_, List.forall_mem_append.mpr ⟨?_, ?_⟩⟩
      · intro place hplace hplace'
        obtain ⟨a, ha, rfl⟩ := List.mem_map.mp hplace
        obtain ⟨b, hb, heq⟩ := List.mem_map.mp hplace'
        obtain ⟨later, hmem, hlaterValue⟩ := hvalues b hb
        have hsame : some later = some typeValue :=
          hlaterValue.symm.trans ((congrArg Prod.snd heq).trans (hvalue a ha))
        exact hown (Option.some.inj hsame ▸ hmem)
      · exact fun a ha => ⟨typeValue, List.mem_cons_self .., hvalue a ha⟩
      · intro a ha
        obtain ⟨later, hmem, hlaterValue⟩ := hvalues a ha
        exact ⟨later, List.mem_cons_of_mem _ hmem, hlaterValue⟩
    · obtain ⟨first, hfirst, hvalue⟩ :=
        accounts_loadOwnersOf base path hfirst (congrArg Prod.snd hfail)
      exact ⟨first, hfirst, fun a ha => ⟨typeValue, List.mem_cons_self .., hvalue a ha⟩⟩

theorem mem_typesOf {typed : List Typed} {typeValue : String} :
    typeValue ∈ typesOf typed ↔ ∃ t ∈ typed, t.typeValue = some typeValue := by
  rw [typesOf, Dict.mem_keys_ofList]
  simp [List.map_filterMap, List.mem_filterMap]

theorem nodup_typesOf (typed : List Typed) : (typesOf typed).Nodup :=
  (Dict.ordered_ofList _).nodup_keys

theorem accounts_loadOwners (path name typeColumn : String) (relation : Relation) (load : EagerLoad)
    {rows : List Row}
    (h : Ends (loadOwners db schema name typeColumn relation load rows) sent sent') :
    ∃ asked, Accounts db schema base [.owner path name typeColumn relation load] rows sent sent'
      asked := by
  unfold loadOwners at h
  dsimp only at h
  have hfound : ∀ typeValue ∈ typesOf (rows.map fun row =>
      Typed.mk (typeValueAt typeColumn row) (row.insert name .null)),
      ∃ row ∈ rows, typeValueAt typeColumn row = some typeValue := by
    intro typeValue hmem
    obtain ⟨t, ht, htype⟩ := mem_typesOf.mp hmem
    obtain ⟨row, hrow, rfl⟩ := List.mem_map.mp ht
    exact ⟨row, hrow, htype⟩
  obtain ⟨asked, hasked, -⟩ :=
    accounts_foldOwners path (nodup_typesOf _) hfound (ends_bind_pure.mp h)
  exact ⟨asked, hasked⟩

theorem accounts_runSteps {steps : List LoadStep} (hnodup : (names steps).Nodup)
    (hsteps : ∀ step ∈ steps, ∀ {rows sent sent'},
      Ends (runStep db schema step rows) sent sent' →
        ∃ asked, Accounts db schema base [step] rows sent sent' asked)
    {rows : List Row} (h : Ends (runSteps db schema steps rows) sent sent') :
    ∃ asked, Accounts db schema base steps rows sent sent' asked := by
  induction steps generalizing rows sent with
  | nil =>
    rw [runSteps] at h
    obtain rfl := ends_pure.mp h
    exact ⟨[], .nil ..⟩
  | cons step steps ih =>
    have hhead : ∀ inner,
        stepsAt (step :: steps) inner = stepsAt [step] inner ++ stepsAt steps inner :=
      stepsAt_append [step] steps
    have hown : ∀ {first middle}, Accounts db schema base [step] rows sent middle first →
        Accounts db schema base (step :: steps) rows sent middle first := fun hfirst =>
      hfirst.mono (fun inner => hhead inner ▸ List.subset_append_left ..)
        fun row hrow => ⟨row, hrow, fun _ _ htype => htype⟩
    obtain ⟨hstep, hrest⟩ := List.forall_mem_cons.mp hsteps
    rw [runSteps] at h
    rcases ends_bind.mp h with ⟨rows', middle, hyields, hends⟩ | ⟨failure, hfail⟩
    · obtain ⟨first, hfirst⟩ := hstep hyields.ends
      have hlater : (names steps).Nodup := by
        refine hnodup.sublist ?_
        exact (List.sublist_cons_self step steps).filterMap _
      obtain ⟨second, hsecond⟩ := ih hlater hrest hends
      obtain ⟨name, -, hwrote⟩ := runStep_wrote hyields
      refine ⟨first ++ second, (hown hfirst).append (hsecond.mono ?_ ?_)
        (hfirst.disjoint hsecond hnodup)⟩
      · exact fun inner => hhead inner ▸ List.subset_append_right ..
      · intro row' hrow'
        obtain ⟨row, hrow, hrowWrote⟩ := exists_of_forall₂_of_mem hwrote hrow'
        exact ⟨row, hrow, typedFrom_of_wrote hrowWrote⟩
    · obtain ⟨first, hfirst⟩ := hstep (congrArg Prod.snd hfail)
      exact ⟨first, hown hfirst⟩

theorem accounts_level (base : List String) {steps : List LoadStep} {entity : Entity}
    {rows : List Row}
    (hsteps : Ends (runSteps db schema steps rows) sent sent' →
      ∃ asked, Accounts db schema base steps rows sent sent' asked)
    (h : Ends (level entity (runSteps db schema steps) rows) sent sent') :
    ∃ asked, Accounts db schema base steps rows sent sent' asked := by
  unfold level at h
  split at h
  · obtain rfl := ends_pure.mp h
    exact ⟨[], .nil ..⟩
  · exact hsteps (ends_bind_pure.mp h)

/-- Whatever a step asks for on the rows of a level and below them, it asks for once. -/
theorem accounts_runStep {step : LoadStep} (hstep : step.WellNamed) {rows : List Row}
    (h : Ends (runStep db schema step rows) sent sent') :
    ∃ asked, Accounts db schema base [step] rows sent sent' asked := by
  induction hstep generalizing base rows sent sent' with
  | fail path failure =>
    rw [runStep] at h
    obtain rfl := ends_throw.mp h
    exact ⟨[], .nil ..⟩
  | owner path name typeColumn relation load =>
    rw [runStep] at h
    exact accounts_loadOwners path name typeColumn relation load h
  | @related path name parentColumn relation target load steps hnodup _ _ ih =>
    rw [runStep] at h
    split at h
    · obtain rfl := ends_pure.mp h
      exact ⟨[], .nil ..⟩
    · next hempty =>
      have hkeys : distinctKeys parentColumn rows ≠ [] := by simpa using hempty
      rcases ends_bind.mp h with ⟨children, middle, hask, hends⟩ | ⟨failure, hfail⟩
      · obtain ⟨rfl, hanswer⟩ := yields_ask.mp hask
        obtain ⟨asked, hasked⟩ := accounts_level (base ++ [name])
          (accounts_runSteps hnodup fun step hstep => ih step hstep) (ends_bind_pure.mp hends)
        exact ⟨_, hasked.below hkeys hanswer⟩
      · obtain rfl := ends_ask.mp (congrArg Prod.snd hfail)
        exact ⟨_, .single (.related rfl hkeys rfl)⟩

end Load

/-! ### What a load can ask for -/

namespace LoadStep

def places (types : List String) : LoadStep → List (String × Option String)
  | .fail _ _ => []
  | .owner path _ _ _ _ => types.map fun typeValue => (path, some typeValue)
  | .related path _ _ _ _ _ _ => [(path, none)]

end LoadStep

def Schema.typeValues (schema : Schema) : List String := schema.morphs.keys ++ schema.entities.keys

theorem Schema.mem_typeValues {schema : Schema} {typeValue : String} {target : Entity}
    (h : schema.morph? typeValue = some target) : typeValue ∈ schema.typeValues := by
  refine List.mem_append.mpr ?_
  rw [Dict.mem_keys_iff, Dict.mem_keys_iff]
  unfold morph? at h
  cases hmorph : schema.morphs.get? typeValue with
  | none =>
    rw [hmorph, Option.getD_none] at h
    exact .inr ⟨target, h⟩
  | some name => exact .inl ⟨name, rfl⟩

/-- An ask is for a relation on the rows of a level, with the load that is filed under its path and
at least one key, and for a polymorphic relation with a registered type that a row of the level
names. -/
inductive Ask.Of (schema : Schema) (loads : Dict EagerLoad) (root : Entity) (rows : List Row)
    (asked : List Ask) (a : Ask) : Prop
  | related {parent target : Entity} {relation : Relation} {keys : List Value}
      (hat : RelationAt schema.loadsTo root a.level a.name parent relation)
      (htarget : schema.loadsTo parent relation = some target) (htype : a.typeValue = none)
      (hkeys : keys ≠ [])
      (hstatement : a.statement =
        .ofRelation relation target ((loads.get? a.path).getD .empty) keys)
  | owner {parent target : Entity} {relation : Relation} {keys : List Value}
      {typeColumn typeValue : String}
      (hat : RelationAt schema.loadsTo root a.level a.name parent relation)
      (hkind : relation.kind = .morphTo) (hcolumn : relation.typeColumn = some typeColumn)
      (htype : a.typeValue = some typeValue) (htarget : schema.morph? typeValue = some target)
      (hfound : TypeFound [] rows asked a.level typeColumn typeValue) (hkeys : keys ≠ [])
      (hstatement : a.statement =
        .ofRelation relation target ((loads.get? a.path).getD .empty) keys)

theorem Ask.For.of_ofLoads {schema : Schema} {loads : Dict EagerLoad} {root : Entity}
    {rows : List Row} {asked : List Ask} {a : Ask} {step : LoadStep}
    (hstep : step ∈ stepsAt (ofLoads schema loads root) a.level)
    (h : a.For schema (TypeFound [] rows asked a.level) step) :
    a.Of schema loads root rows asked ∧
      (a.path, a.typeValue) ∈ step.places schema.typeValues := by
  rcases mem_stepsAt_ofLoads hstep with ⟨_, _, rfl⟩ | ⟨name, parent, relation, hat, hloads⟩
  · cases h
  · obtain rfl : name = a.name := Option.some.inj (hloads.name?_eq.symm.trans h.name?_eq)
    cases hloads with
    | owner hkind hcolumn =>
      cases h with
      | owner htype htarget hfound hkeys hstatement =>
        refine ⟨.owner hat hkind hcolumn htype htarget hfound hkeys hstatement, ?_⟩
        rw [htype]
        exact List.mem_map_of_mem (Schema.mem_typeValues htarget)
    | related pending htarget =>
      cases h with
      | related htype hkeys hstatement =>
        refine ⟨.related hat htarget htype hkeys hstatement, ?_⟩
        rw [htype]
        exact List.mem_singleton_self _

namespace Load

/-- The places of an account are told apart by the written paths. -/
theorem nodup_paths {asked : List Ask} (hundotted : ∀ a ∈ asked, ∀ s ∈ a.segments, Undotted s)
    (h : (asked.map Ask.place).Nodup) : (asked.map fun a => (a.path, a.typeValue)).Nodup := by
  have hsegments : ∀ a ∈ asked, pieces '.' a.path = a.segments := fun a ha =>
    pieces_of_pathTo (hundotted a ha) (pathTo_concat a.level a.name)
  have hplaces : (asked.map fun a => (a.path, a.typeValue)).map
      (fun place => (pieces '.' place.1, place.2)) = asked.map Ask.place := by
    rw [List.map_map]
    exact List.map_congr_left fun a ha => congrArg (·, a.typeValue) (hsegments a ha)
  rw [← hplaces] at h
  exact h.of_map _

/-- A load asks for no relation path and type twice, and never without keys, whatever the database
answers and wherever it fails. What it can ask for is known from the plan and the schema, so it
sends no more statements than that, however many rows there are. -/
theorem asked_once (db : Database) (schema : Schema) (loads : Dict EagerLoad) (root : Entity)
    (rows : List Row) (sent : List Statement) :
    ∃ asked : List Ask,
      ((Load.run db schema loads root rows).run.run sent).run.2 =
        sent ++ asked.map Ask.statement ∧
      Logged db sent asked ∧
      (asked.map fun a => (a.path, a.typeValue)).Nodup ∧
      (∀ a ∈ asked, a.Of schema loads root rows asked) ∧
      asked.length ≤
        ((allOf (ofLoads schema loads root)).flatMap (places schema.typeValues)).length := by
  have hnames : (names (ofLoads schema loads root)).Nodup := nodup_names_build ..
  have hwell : ∀ step ∈ ofLoads schema loads root, step.WellNamed := fun _ => wellNamed_of_mem_build
  have hends : Ends (Load.run db schema loads root rows) sent _ := rfl
  obtain ⟨asked, hasked⟩ := accounts_level []
    (accounts_runSteps hnames fun step hstep => accounts_runStep (hwell step hstep)) hends
  have hfor : ∀ a ∈ asked, ∃ step ∈ stepsAt (ofLoads schema loads root) a.level,
      a.For schema (TypeFound [] rows asked a.level) step := by
    intro a ha
    obtain ⟨inner, step, hlevel, hstep, hfor⟩ := hasked.asks a ha
    rw [List.nil_append] at hlevel
    exact ⟨step, hlevel ▸ hstep, hfor⟩
  have hnodup : (asked.map fun a => (a.path, a.typeValue)).Nodup := by
    refine nodup_paths (fun a ha => ?_) hasked.nodup
    obtain ⟨step, hstep, hfor⟩ := hfor a ha
    exact undotted_of_mem_stepsAt (fun _ => undotted_of_mem_names_build) hwell hstep hfor.name?_eq
  refine ⟨asked, hasked.sent_eq, hasked.logged, hnodup, fun a ha => ?_, ?_⟩
  · obtain ⟨step, hstep, hfor⟩ := hfor a ha
    exact (hfor.of_ofLoads hstep).1
  · rw [← List.length_map fun a : Ask => (a.path, a.typeValue)]
    refine (List.subperm_of_subset hnodup fun place hplace => ?_).length_le
    obtain ⟨a, ha, rfl⟩ := List.mem_map.mp hplace
    obtain ⟨step, hstep, hfor⟩ := hfor a ha
    exact List.mem_flatMap.mpr
      ⟨step, mem_allOf_of_mem_stepsAt hstep, (hfor.of_ofLoads hstep).2⟩

end Load

end RestQuery
