import RestQuery.Proofs.Load.Association

/-!
# Loads that work row by row

A load works row by row if it makes of a list what it makes of each row, and still succeeds when
rows are left out. Such loads can be put one after another, and computed fields can be added to
them. The rows of a level change while it is loaded, but each of them stays drawn from a row of the
level as it was, with what the steps to come find in it.
-/

namespace RestQuery.Load

/-- What a load makes of some rows it makes of each of them, and it also succeeds for fewer rows. -/
def Rowwise (load : List Row → Run (List Row)) (f : Row → Row) (rows : List Row) : Prop :=
  ∀ ⦃sent out sent'⦄, Yields (load rows) sent out sent' → out = rows.map f ∧
    ∀ part, part.Sublist rows → ∀ start, ∃ finish, Yields (load part) start (part.map f) finish

theorem yields_unique {α : Type} {x : Run α} {sent sent₁ sent₂ : List Sql.Statement} {a b : α}
    (ha : Yields x sent a sent₁) (hb : Yields x sent b sent₂) : a = b ∧ sent₁ = sent₂ := by
  simpa using ha.symm.trans hb

theorem rowwise_of_forall {load : List Row → Run (List Row)} {f : Row → Row} {rows : List Row}
    (h : ∀ part : List Row, part.Sublist rows → ∀ start, ∃ finish,
      Yields (load part) start (part.map f) finish) : Rowwise load f rows := by
  intro sent out sent' hyields
  obtain ⟨finish, hall⟩ := h rows (List.Sublist.refl rows) sent
  exact ⟨(yields_unique hyields hall).1, h⟩

theorem Rowwise.comp {load next : List Row → Run (List Row)} {f g : Row → Row} {rows : List Row}
    (h : Rowwise load f rows) (hnext : Rowwise next g (rows.map f)) :
    Rowwise (fun rows => load rows >>= next) (g ∘ f) rows := by
  intro sent out sent' hyields
  obtain ⟨middle, sent₁, hfirst, hrest⟩ := yields_bind.mp hyields
  obtain ⟨rfl, hparts⟩ := h hfirst
  obtain ⟨rfl, hnextParts⟩ := hnext hrest
  refine ⟨List.map_map, fun part hpart start => ?_⟩
  obtain ⟨between, hload⟩ := hparts part hpart start
  obtain ⟨finish, hfinish⟩ := hnextParts (part.map f) (hpart.map f) between
  rw [List.map_map] at hfinish
  exact ⟨finish, yields_bind.mpr ⟨_, _, hload, hfinish⟩⟩

theorem Rowwise.level {load : List Row → Run (List Row)} {f : Row → Row} {rows : List Row}
    (h : Rowwise load f rows) (entity : Entity) :
    Rowwise (level entity load) (entity.compute ∘ f) rows := by
  intro sent out sent' hyields
  unfold Load.level at hyields
  split at hyields
  · next hempty =>
    obtain rfl := List.isEmpty_iff.mp hempty
    obtain ⟨rfl, rfl⟩ := yields_pure.mp hyields
    refine ⟨rfl, fun part hpart start => ?_⟩
    obtain rfl := List.sublist_nil.mp hpart
    exact ⟨start, yields_pure.mpr ⟨rfl, rfl⟩⟩
  · obtain ⟨loaded, sent₁, hload, hcompute⟩ := yields_bind.mp hyields
    obtain ⟨rfl, -⟩ := yields_pure.mp hcompute
    obtain ⟨rfl, hparts⟩ := h hload
    refine ⟨List.map_map, fun part hpart start => ?_⟩
    unfold Load.level
    split
    · next hempty =>
      obtain rfl := List.isEmpty_iff.mp hempty
      exact ⟨start, yields_pure.mpr ⟨rfl, rfl⟩⟩
    · obtain ⟨finish, hpartLoad⟩ := hparts part hpart start
      exact ⟨finish, yields_bind.mpr ⟨_, _, hpartLoad, yields_pure.mpr ⟨List.map_map, rfl⟩⟩⟩

/-! ### Rows that keep their keys -/

/-- Rows that are related to rows of a level, in their order. -/
def Drawn (R : Row → Row → Prop) (level rows : List Row) : Prop :=
  ∃ origin : List Row, origin.Sublist level ∧ List.Forall₂ R origin rows

theorem exists_sublist_of_forall₂ {α β : Type} {R : α → β → Prop} {as : List α} {bs part : List β}
    (h : List.Forall₂ R as bs) (hpart : part.Sublist bs) :
    ∃ origin : List α, origin.Sublist as ∧ List.Forall₂ R origin part := by
  induction hpart generalizing as with
  | slnil => exact ⟨[], List.nil_sublist _, .nil⟩
  | cons b _ ih =>
    cases h with
    | cons _ hrest =>
      obtain ⟨origin, hsub, hall⟩ := ih hrest
      exact ⟨origin, hsub.cons _, hall⟩
  | cons_cons b _ ih =>
    cases h with
    | cons hab hrest =>
      obtain ⟨origin, hsub, hall⟩ := ih hrest
      exact ⟨_ :: origin, hsub.cons_cons _, .cons hab hall⟩

section Drawn

variable {R S : Row → Row → Prop} {level rows : List Row}

theorem drawn_of_sublist (h : rows.Sublist level) (hR : ∀ row, R row row) : Drawn R level rows :=
  ⟨rows, h, List.forall₂_same.mpr fun row _ => hR row⟩

theorem Drawn.sublist (h : Drawn R level rows) {part : List Row} (hpart : part.Sublist rows) :
    Drawn R level part := by
  obtain ⟨origin, hsub, hall⟩ := h
  obtain ⟨origin', hsub', hall'⟩ := exists_sublist_of_forall₂ hall hpart
  exact ⟨origin', hsub'.trans hsub, hall'⟩

theorem Drawn.imp (h : Drawn R level rows) (hS : ∀ row row', R row row' → S row row') :
    Drawn S level rows := by
  obtain ⟨origin, hsub, hall⟩ := h
  exact ⟨origin, hsub, hall.imp hS⟩

theorem Drawn.map (h : Drawn R level rows) {f : Row → Row}
    (hf : ∀ row row', R row row' → S row (f row')) : Drawn S level (rows.map f) := by
  obtain ⟨origin, hsub, hall⟩ := h
  exact ⟨origin, hsub, List.forall₂_map_right_iff.mpr (hall.imp hf)⟩

theorem Drawn.filter (h : Drawn R level rows) {p : Row → Bool}
    (hp : ∀ row row', R row row' → p row' = true → p row = true) :
    Drawn R (level.filter p) (rows.filter p) := by
  obtain ⟨origin, hsub, hall⟩ := h.sublist (rows.filter_sublist (p := p))
  have hpass : ∀ row ∈ origin, p row = true := by
    intro row hrow
    obtain ⟨row', hrow', hR⟩ := exists_of_forall₂_of_mem hall.flip hrow
    exact hp row row' hR (List.mem_filter.mp hrow').2
  have hkept : origin.filter p = origin := List.filter_eq_self.mpr hpass
  exact ⟨origin, hkept ▸ hsub.filter p, hall⟩

end Drawn

/-! ### What a step finds in a row -/

def SameAt (column : String) (row row' : Row) : Prop := row'.get? column = row.get? column

/-- A row has the type value that another one has, or none. -/
def TypedFrom (typeColumn : String) (row row' : Row) : Prop :=
  ∀ typeValue, typeValueAt typeColumn row' = some typeValue →
    typeValueAt typeColumn row = some typeValue

theorem typeValueAt_eq_some_iff {typeColumn typeValue : String} {row : Row} :
    typeValueAt typeColumn row = some typeValue ↔ row.get? typeColumn = some (.text typeValue) := by
  unfold typeValueAt
  split <;> simp_all

/-- What a step writes is no text, so it names no type. -/
theorem typedFrom_of_wrote {name : String} {row row' : Row} (h : Wrote name row row')
    (typeColumn : String) : TypedFrom typeColumn row row' := by
  intro typeValue htype
  rw [typeValueAt_eq_some_iff] at htype ⊢
  by_cases hname : typeColumn = name
  · have hkey : keyAt typeColumn row' = _ := h.keyAt_eq
    rw [if_pos hname, keyAt, htype] at hkey
    cases hkey
  · rwa [h.get?_of_ne hname] at htype

/-- What a step finds in a row is what it would have found there before, save that the type may be
gone. -/
def Finds : LoadStep → Row → Row → Prop
  | .fail _ _, _, _ => True
  | .owner _ _ typeColumn relation _, row, row' =>
    SameAt relation.foreignKey row row' ∧ TypedFrom typeColumn row row'
  | .related _ _ parentColumn _ _ _ _, row, row' => SameAt parentColumn row row'

theorem Finds.refl (step : LoadStep) (row : Row) : Finds step row row := by
  cases step with
  | fail => trivial
  | owner => exact ⟨rfl, fun _ htype => htype⟩
  | related => rfl

end RestQuery.Load
