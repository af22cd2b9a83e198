import Mathlib.Data.List.Forall2
import RestQuery.Load
import RestQuery.Proofs.Load.Tree

/-!
# Runs that succeed, and what their steps write

`Yields` says that a run started after some statements returns a value. A step of a load changes
nothing in a row but the field of its own name, and what it puts there, an array, a row or null, is
no key. So after some steps a row has the key of a column that it began with, unless one of the
steps is named like the column.
-/

namespace RestQuery

open Load

theorem forall₂_trans {α β γ : Type} {R : α → β → Prop} {S : β → γ → Prop} {T : α → γ → Prop}
    {as : List α} {bs : List β} {cs : List γ} (hR : List.Forall₂ R as bs)
    (hS : List.Forall₂ S bs cs) (hT : ∀ a b c, R a b → S b c → T a c) : List.Forall₂ T as cs := by
  induction hR generalizing cs with
  | nil =>
    cases hS
    exact .nil
  | cons hab _ ih =>
    cases hS with
    | cons hbc hS => exact .cons (hT _ _ _ hab hbc) (ih hS)

theorem exists_of_forall₂_of_mem {α β : Type} {R : α → β → Prop} {as : List α} {bs : List β}
    (h : List.Forall₂ R as bs) {b : β} (hb : b ∈ bs) : ∃ a ∈ as, R a b := by
  induction h with
  | nil => cases hb
  | @cons a c as bs hac _ ih =>
    rcases List.mem_cons.mp hb with rfl | hb
    · exact ⟨a, List.mem_cons_self .., hac⟩
    · obtain ⟨a', ha', hab⟩ := ih hb
      exact ⟨a', List.mem_cons_of_mem a ha', hab⟩

/-- A run that starts after the statements of `sent` returns a value. -/
def Yields {α : Type} (x : Run α) (sent : List Sql.Statement) (a : α)
    (sent' : List Sql.Statement) : Prop := (x.run.run sent).run = (.ok a, sent')

section Yields

variable {α β : Type} {sent sent' : List Sql.Statement}

@[simp] theorem yields_pure {a b : α} : Yields (pure a) sent b sent' ↔ a = b ∧ sent = sent' := by
  change ((.ok a, sent) : Except Failure α × List Sql.Statement) = (.ok b, sent') ↔ _
  rw [Prod.mk.injEq, Except.ok.injEq]

theorem run_bind (x : Run α) (f : α → Run β) (sent : List Sql.Statement) :
    ((x >>= f).run.run sent).run = match (x.run.run sent).run with
      | (.ok a, middle) => ((f a).run.run middle).run
      | (.error failure, middle) => (.error failure, middle) := by
  simp only [bind, ExceptT.bind, ExceptT.mk, ExceptT.run, StateT.bind, StateT.run, Id.run]
  cases x sent with
  | mk result middle => cases result <;> rfl

theorem yields_bind {x : Run α} {f : α → Run β} {b : β} :
    Yields (x >>= f) sent b sent' ↔
      ∃ a middle, Yields x sent a middle ∧ Yields (f a) middle b sent' := by
  unfold Yields
  rw [run_bind]
  cases (x.run.run sent).run with
  | mk result middle => cases result <;> simp

/-- A run that is not seen to fail returns a value. -/
theorem exists_yields {x : Run α} (h : ((x.run.run sent).run.1.toOption).isSome = true) :
    ∃ a sent', Yields x sent a sent' := by
  unfold Yields
  cases hrun : (x.run.run sent).run with
  | mk result sent' =>
    rw [hrun] at h
    cases result with
    | error failure => cases h
    | ok a => exact ⟨a, sent', rfl⟩

@[simp] theorem not_yields_throw {failure : Failure} {a : α} :
    ¬ Yields (throw failure : Run α) sent a sent' := by
  change ¬ ((.error failure, sent) : Except Failure α × List Sql.Statement) = (.ok a, sent')
  simp

theorem run_ask (db : Database) (statement : Sql.Statement) (sent : List Sql.Statement) :
    ((db.ask statement).run.run sent).run =
      (match db (sent ++ [statement]) with
        | .rows rows => .ok rows
        | .fault fault => .error fault.onStatement, sent ++ [statement]) := by
  have hget : Yields (get : Run (List Sql.Statement)) sent sent sent := rfl
  have hset : Yields (set (sent ++ [statement]) : Run PUnit) sent ⟨⟩ (sent ++ [statement]) := rfl
  unfold Database.ask
  rw [run_bind, hget]
  dsimp only
  rw [run_bind, hset]
  dsimp only
  cases db (sent ++ [statement]) <;> rfl

theorem yields_ask {db : Database} {statement : Sql.Statement} {rows : List Row} :
    Yields (db.ask statement) sent rows sent' ↔
      sent' = sent ++ [statement] ∧ db sent' = .rows rows := by
  rw [Yields, run_ask, Prod.mk.injEq]
  constructor
  · rintro ⟨hrows, rfl⟩
    cases hdb : db (sent ++ [statement]) with
    | rows returned => simp_all
    | fault fault => simp [hdb] at hrows
  · rintro ⟨rfl, hrows⟩
    simp [hrows]

end Yields

/-! ### What a step writes -/

@[simp] theorem keyAt_insert_self (row : Row) (name : String) (value : Json) :
    keyAt name (row.insert name value) = keyText value := by
  simp [keyAt]

@[simp] theorem keyAt_insert_of_ne (row : Row) {column name : String} (value : Json)
    (h : column ≠ name) : keyAt column (row.insert name value) = keyAt column row := by
  simp [keyAt, h]

/-- A row got a value that is no key under a name, and is otherwise unchanged. -/
def Wrote (name : String) (row row' : Row) : Prop :=
  ∃ value, row' = row.insert name value ∧ keyText value = none

theorem Wrote.get?_of_ne {name column : String} {row row' : Row} (h : Wrote name row row')
    (hne : column ≠ name) : row'.get? column = row.get? column := by
  obtain ⟨value, rfl, -⟩ := h
  exact Dict.get?_insert_of_ne row value hne

theorem Wrote.keyAt_eq {name column : String} {row row' : Row} (h : Wrote name row row') :
    keyAt column row' = if column = name then none else keyAt column row := by
  obtain ⟨value, rfl, hvalue⟩ := h
  split
  · next hc => simp [hc, hvalue]
  · next hc => simp [hc]

/-- Two writes under one name are one. -/
theorem Wrote.insert {name : String} {row row' : Row} (h : Wrote name row row') {value : Json}
    (hvalue : keyText value = none) : Wrote name row (row'.insert name value) := by
  obtain ⟨first, rfl, -⟩ := h
  exact ⟨value, Dict.insert_insert_self row name first value, hvalue⟩

namespace Stitch

/-- Whether two keys tie rows together; what has no key is tied to nothing. -/
def sameKey (a b : Option String) : Bool := a.isSome && a == b

theorem sameKey_none (key : Option String) : sameKey key none = false := by
  cases key <;> rfl

def matching (childColumn : String) (key : Option String) (children : List Row) : List Row :=
  children.filter fun child => sameKey key (keyAt childColumn child)

theorem getD_foldl_addChild (childColumn key : String) (children : List Row)
    (groups : Dict (List Json)) :
    ((children.foldl (addChild childColumn) groups).get? key).getD [] = (groups.get? key).getD [] ++
      (matching childColumn (some key) children).map fun child =>
        .object (detached childColumn child) := by
  induction children generalizing groups with
  | nil => simp [matching]
  | cons child children ih =>
    rw [List.foldl_cons, ih]
    unfold addChild matching
    rw [List.filter_cons]
    cases hkey : keyAt childColumn child with
    | none => simp [sameKey]
    | some other =>
      by_cases hsame : key = other
      · subst hsame
        simp [sameKey]
      · simp [sameKey, hsame]

/-- Every row receives the related rows that match its own key. -/
theorem attach_eq (rows children : List Row) (name parentColumn childColumn : String)
    (toMany : Bool) :
    attach rows children name parentColumn childColumn toMany = rows.map fun row =>
      row.insert name (shown toMany
        ((matching childColumn (keyAt parentColumn row) children).map fun child =>
          .object (detached childColumn child))) := by
  unfold attach
  refine List.map_congr_left fun row _ => ?_
  cases keyAt parentColumn row with
  | none => simp [matching, sameKey]
  | some key =>
    rw [Option.bind_some, groups, getD_foldl_addChild]
    simp [Dict.get?]

theorem keyText_shown (toMany : Bool) (children : List Row) (f : Row → Row) :
    keyText (shown toMany (children.map fun child => .object (f child))) = none := by
  unfold shown
  cases toMany <;> cases children <;> rfl

theorem attach_wrote (rows children : List Row) (name parentColumn childColumn : String)
    (toMany : Bool) :
    List.Forall₂ (Wrote name) rows
      (attach rows children name parentColumn childColumn toMany) := by
  rw [attach_eq, List.forall₂_map_right_iff]
  exact List.forall₂_same.mpr fun row _ => ⟨_, rfl, keyText_shown toMany _ _⟩

theorem attachOwner_wrote {name : String} {row row' : Row} (h : Wrote name row row')
    (owners : Dict Row) (idColumn : String) :
    Wrote name row (attachOwner owners name idColumn row') := by
  unfold attachOwner
  split
  · exact h.insert rfl
  · exact h

end Stitch

namespace Load

variable {db : Database} {schema : Schema} {sent sent' : List Sql.Statement} {rows out : List Row}

theorem loadOwnersOf_wrote {name typeValue : String} {relation : Relation} {load : EagerLoad}
    {typed typed' : List Typed}
    (h : Yields (loadOwnersOf db schema name relation load typed typeValue) sent typed' sent')
    (hrows : List.Forall₂ (fun row t => Wrote name row t.row) rows typed) :
    List.Forall₂ (fun row t => Wrote name row t.row) rows typed' := by
  unfold loadOwnersOf at h
  split at h
  · obtain ⟨rfl, -⟩ := yields_pure.mp h
    exact hrows
  · next target htarget =>
    dsimp only at h
    split at h
    · obtain ⟨rfl, -⟩ := yields_pure.mp h
      exact hrows
    · obtain ⟨found, middle, -, h⟩ := yields_bind.mp h
      obtain ⟨rfl, -⟩ := yields_pure.mp h
      rw [List.forall₂_map_right_iff]
      refine hrows.imp fun row t hwrote => ?_
      split
      · exact Stitch.attachOwner_wrote hwrote _ _
      · exact hwrote

theorem loadOwners_wrote {name typeColumn : String} {relation : Relation} {load : EagerLoad}
    (h : Yields (loadOwners db schema name typeColumn relation load rows) sent out sent') :
    List.Forall₂ (Wrote name) rows out := by
  have hfold : ∀ {types : List String} {typed typed' : List Typed} {sent sent'},
      Yields (types.foldlM (loadOwnersOf db schema name relation load) typed) sent typed' sent' →
      List.Forall₂ (fun row t => Wrote name row t.row) rows typed →
      List.Forall₂ (fun row t => Wrote name row t.row) rows typed' := by
    intro types
    induction types with
    | nil =>
      intro typed typed' sent sent' hyields hrows
      obtain ⟨rfl, -⟩ := yields_pure.mp hyields
      exact hrows
    | cons type types ih =>
      intro typed typed' sent sent' hyields hrows
      rw [List.foldlM_cons] at hyields
      obtain ⟨next, middle, hfirst, hrest⟩ := yields_bind.mp hyields
      exact ih hrest (loadOwnersOf_wrote hfirst hrows)
  unfold loadOwners at h
  obtain ⟨typed, middle, hyields, h⟩ := yields_bind.mp h
  obtain ⟨rfl, -⟩ := yields_pure.mp h
  rw [List.forall₂_map_right_iff]
  apply hfold hyields
  rw [List.forall₂_map_right_iff]
  exact List.forall₂_same.mpr fun row _ => ⟨_, rfl, rfl⟩

/-- A step writes the field of its relation into every row, and nothing else. -/
theorem runStep_wrote {step : LoadStep} (h : Yields (runStep db schema step rows) sent out sent') :
    ∃ name, step.name? = some name ∧ List.Forall₂ (Wrote name) rows out := by
  cases step with
  | fail path failure =>
    rw [runStep] at h
    exact absurd h not_yields_throw
  | owner path name typeColumn relation load =>
    rw [runStep] at h
    exact ⟨name, rfl, loadOwners_wrote h⟩
  | related path name parentColumn relation target load steps =>
    refine ⟨name, rfl, ?_⟩
    rw [runStep] at h
    split at h
    · obtain ⟨rfl, -⟩ := yields_pure.mp h
      exact Stitch.attach_wrote ..
    · obtain ⟨children, middle, -, h⟩ := yields_bind.mp h
      obtain ⟨finished, middle', -, h⟩ := yields_bind.mp h
      obtain ⟨rfl, -⟩ := yields_pure.mp h
      exact Stitch.attach_wrote ..

/-- The key that a row has at a column once some steps have written to it. -/
def keyAfter (steps : List LoadStep) (column : String) (row : Row) : Option String :=
  if column ∈ LoadStep.names steps then none else keyAt column row

/-- What some steps have done to a row. -/
structure Loaded (steps : List LoadStep) (row row' : Row) : Prop where
  get?_eq : ∀ {column}, column ∉ LoadStep.names steps → row'.get? column = row.get? column
  keyAt_eq : ∀ column, keyAt column row' = keyAfter steps column row

theorem Loaded.refl (row : Row) : Loaded [] row row :=
  ⟨fun _ => rfl, fun column => by simp [keyAfter, LoadStep.names]⟩

theorem Loaded.cons {step : LoadStep} {steps : List LoadStep} {name : String}
    {row middle row' : Row} (hname : step.name? = some name) (hwrote : Wrote name row middle)
    (h : Loaded steps middle row') : Loaded (step :: steps) row row' := by
  have hmem : ∀ column, column ∈ LoadStep.names (step :: steps) ↔
      column = name ∨ column ∈ LoadStep.names steps := by
    intro column
    simp [LoadStep.names, hname]
  constructor
  · intro column hcolumn
    rw [hmem, not_or] at hcolumn
    rw [h.get?_eq hcolumn.2, hwrote.get?_of_ne hcolumn.1]
  · intro column
    rw [h.keyAt_eq, keyAfter, keyAfter, hwrote.keyAt_eq]
    by_cases hsteps : column ∈ LoadStep.names steps <;> by_cases hc : column = name <;>
      simp [hmem, hsteps, hc]

theorem runSteps_loaded {steps : List LoadStep}
    (h : Yields (runSteps db schema steps rows) sent out sent') :
    List.Forall₂ (Loaded steps) rows out := by
  induction steps generalizing rows sent with
  | nil =>
    rw [runSteps] at h
    obtain ⟨rfl, -⟩ := yields_pure.mp h
    exact List.forall₂_same.mpr fun row _ => .refl row
  | cons step steps ih =>
    rw [runSteps] at h
    obtain ⟨middle, sent₁, hstep, hrest⟩ := yields_bind.mp h
    obtain ⟨name, hname, hwrote⟩ := runStep_wrote hstep
    exact forall₂_trans hwrote (ih hrest) fun _ _ _ => Loaded.cons hname

end Load

end RestQuery
