import RestQuery.Proofs.Load.Association

/-!
# What a step reads

A step reads only the columns of `readColumns`. On rows that agree on these, it sends the same
statements, fails with the same failure, and attaches the same values, whatever else the rows hold.
-/

namespace RestQuery

open LoadStep Stitch

/-- Two runs send the same statements and fail alike, or return related values. -/
def RunsAlike {α β : Type} (R : α → β → Prop) (x : Run α) (y : Run β) : Prop :=
  ∀ sent, match (x.run.run sent).run, (y.run.run sent).run with
    | (.ok a, sent₁), (.ok b, sent₂) => R a b ∧ sent₁ = sent₂
    | (.error failure, sent₁), (.error failure', sent₂) => failure = failure' ∧ sent₁ = sent₂
    | _, _ => False

section RunsAlike

variable {α β γ δ : Type} {R : α → β → Prop}

theorem RunsAlike.pure {a : α} {b : β} (h : R a b) :
    RunsAlike R (Pure.pure a : Run α) (Pure.pure b) := fun _ => ⟨h, rfl⟩

theorem RunsAlike.imp {S : α → β → Prop} {x : Run α} {y : Run β} (h : RunsAlike R x y)
    (hS : ∀ a b, R a b → S a b) : RunsAlike S x y := by
  intro sent
  have hsent := h sent
  split at hsent
  · exact ⟨hS _ _ hsent.1, hsent.2⟩
  · exact hsent
  · exact hsent

theorem RunsAlike.refl (x : Run α) : RunsAlike (· = ·) x x := by
  intro sent
  cases (x.run.run sent).run with
  | mk result middle => cases result <;> exact ⟨rfl, rfl⟩

theorem RunsAlike.bind {S : γ → δ → Prop} {x : Run α} {y : Run β} {f : α → Run γ} {g : β → Run δ}
    (hxy : RunsAlike R x y) (hfg : ∀ a b, R a b → RunsAlike S (f a) (g b)) :
    RunsAlike S (x >>= f) (y >>= g) := by
  intro sent
  have h := hxy sent
  rw [run_bind, run_bind]
  cases hx : (x.run.run sent).run with
  | mk result middle =>
    cases hy : (y.run.run sent).run with
    | mk result' middle' =>
      rw [hx, hy] at h
      cases result with
      | error failure =>
        cases result' with
        | error failure' => exact h
        | ok b => exact h.elim
      | ok a =>
        cases result' with
        | error failure' => exact h.elim
        | ok b =>
          obtain ⟨hab, rfl⟩ := h
          exact hfg a b hab middle

end RunsAlike

/-! ### Rows that agree on some columns -/

def Agrees (columns : String → Prop) (row row' : Row) : Prop :=
  ∀ column, columns column → row'.get? column = row.get? column

section Agrees

variable {columns : String → Prop} {row row' : Row}

theorem Agrees.keyAt_eq (h : Agrees columns row row') {column : String} (hc : columns column) :
    keyAt column row' = keyAt column row := by
  rw [keyAt, h column hc, keyAt]

theorem Agrees.insert (h : Agrees columns row row') (name : String) (value : Json) :
    Agrees (fun c => columns c ∨ c = name) (row.insert name value) (row'.insert name value) := by
  intro column hc
  by_cases hname : column = name
  · subst hname
    simp
  · simpa [hname] using h column (hc.resolve_right hname)

theorem Agrees.attachOwner {name idColumn : String} (h : Agrees columns row row')
    (hid : columns idColumn) (owners : Dict Row) :
    Agrees columns (attachOwner owners name idColumn row)
      (attachOwner owners name idColumn row') := by
  unfold Stitch.attachOwner
  rw [h.keyAt_eq hid]
  split
  · intro column hc
    exact h.insert name _ column (Or.inl hc)
  · exact h

end Agrees

namespace Load

variable {db : Database} {schema : Schema} {columns : String → Prop}

/-- Rows with the same type value that agree on some columns. -/
def TypedAlike (columns : String → Prop) (t t' : Typed) : Prop :=
  t'.typeValue = t.typeValue ∧ Agrees columns t.row t'.row

theorem typesOf_eq {typed typed' : List Typed}
    (h : List.Forall₂ (TypedAlike columns) typed typed') : typesOf typed' = typesOf typed := by
  unfold typesOf
  congr 2
  induction h with
  | nil => rfl
  | cons hrow _ ih => rw [List.filterMap_cons, List.filterMap_cons, hrow.1, ih]

theorem loadOwnersOf_alike {name typeValue : String} {relation : Relation} {load : EagerLoad}
    (hid : columns relation.foreignKey) {typed typed' : List Typed}
    (h : List.Forall₂ (TypedAlike columns) typed typed') :
    RunsAlike (List.Forall₂ (TypedAlike columns))
      (loadOwnersOf db schema name relation load typed typeValue)
      (loadOwnersOf db schema name relation load typed' typeValue) := by
  have hkeys : distinctKeys relation.foreignKey
        ((typed'.filter (·.typeValue = some typeValue)).map Typed.row) =
      distinctKeys relation.foreignKey
        ((typed.filter (·.typeValue = some typeValue)).map Typed.row) := by
    apply distinctKeys_congr
    rw [List.forall₂_map_left_iff, List.forall₂_map_right_iff]
    refine List.Forall₂.imp (fun t t' ht => ht.2 _ hid) (List.rel_filter ?_ h)
    intro t t' ht
    simp [ht.1]
  unfold loadOwnersOf
  cases schema.morph? typeValue with
  | none => exact .pure h
  | some target =>
    dsimp only
    rw [hkeys]
    split
    · exact .pure h
    · refine (RunsAlike.refl _).bind ?_
      rintro found _ rfl
      refine .pure ?_
      rw [List.forall₂_map_left_iff, List.forall₂_map_right_iff]
      refine h.imp fun t t' ht => ?_
      rw [ht.1]
      split
      · exact ⟨rfl, ht.2.attachOwner hid _⟩
      · exact ht

theorem loadOwners_alike {name typeColumn : String} {relation : Relation} {load : EagerLoad}
    (htype : columns typeColumn) (hid : columns relation.foreignKey) {rows rows' : List Row}
    (h : List.Forall₂ (Agrees columns) rows rows') :
    RunsAlike (List.Forall₂ (Agrees fun c => columns c ∨ c = name))
      (loadOwners db schema name typeColumn relation load rows)
      (loadOwners db schema name typeColumn relation load rows') := by
  have hfold : ∀ (types : List String) {typed typed' : List Typed},
      List.Forall₂ (TypedAlike fun c => columns c ∨ c = name) typed typed' →
      RunsAlike (List.Forall₂ (TypedAlike fun c => columns c ∨ c = name))
        (types.foldlM (loadOwnersOf db schema name relation load) typed)
        (types.foldlM (loadOwnersOf db schema name relation load) typed') := by
    intro types
    induction types with
    | nil => exact fun htyped => .pure htyped
    | cons type types ih =>
      intro typed typed' htyped
      rw [List.foldlM_cons, List.foldlM_cons]
      exact (loadOwnersOf_alike (Or.inl hid) htyped).bind fun _ _ => ih
  have htyped : List.Forall₂ (TypedAlike fun c => columns c ∨ c = name)
      (rows.map fun row => Typed.mk (typeValueAt typeColumn row) (row.insert name .null))
      (rows'.map fun row => Typed.mk (typeValueAt typeColumn row) (row.insert name .null)) := by
    rw [List.forall₂_map_left_iff, List.forall₂_map_right_iff]
    refine h.imp fun row row' hrow => ⟨?_, hrow.insert name .null⟩
    simp only [typeValueAt, hrow typeColumn htype]
  unfold loadOwners
  dsimp only
  rw [typesOf_eq htyped]
  refine (hfold _ htyped).bind fun typed typed' hloaded => .pure ?_
  rw [List.forall₂_map_left_iff, List.forall₂_map_right_iff]
  exact hloaded.imp fun _ _ ht => ht.2

/-- A step reads the columns of `readColumns` and no others. -/
theorem runStep_alike {step : LoadStep} (hread : ∀ column ∈ step.readColumns, columns column)
    {rows rows' : List Row} (h : List.Forall₂ (Agrees columns) rows rows') :
    RunsAlike (List.Forall₂ (Agrees fun c => columns c ∨ step.name? = some c))
      (runStep db schema step rows) (runStep db schema step rows') := by
  cases step with
  | fail path failure =>
    rw [runStep, runStep]
    exact fun _ => ⟨rfl, rfl⟩
  | owner path name typeColumn relation load =>
    rw [runStep, runStep]
    simp only [name?, Option.some.injEq, eq_comm (a := name)]
    exact loadOwners_alike (hread _ (by simp [readColumns])) (hread _ (by simp [readColumns])) h
  | related path name parentColumn relation target load steps =>
    have hparent : columns parentColumn := hread _ (by simp [readColumns])
    have hattach : ∀ finished column, List.Forall₂
        (Agrees fun c => columns c ∨ name? (.related path name parentColumn relation target load
          steps) = some c)
        (attach rows finished name parentColumn column relation.kind.isToMany)
        (attach rows' finished name parentColumn column relation.kind.isToMany) := by
      intro finished column
      rw [attach_eq, attach_eq, List.forall₂_map_left_iff, List.forall₂_map_right_iff]
      refine h.imp fun row row' hrow => ?_
      rw [hrow.keyAt_eq hparent]
      simp only [name?, Option.some.injEq, eq_comm (a := name)]
      exact hrow.insert name _
    rw [runStep, runStep, distinctKeys_congr (h.imp fun _ _ hrow => hrow _ hparent)]
    split
    · exact .pure (hattach _ _)
    · refine (RunsAlike.refl _).bind ?_
      rintro children _ rfl
      refine (RunsAlike.refl _).bind ?_
      rintro finished _ rfl
      exact .pure (hattach _ _)

end Load

end RestQuery
