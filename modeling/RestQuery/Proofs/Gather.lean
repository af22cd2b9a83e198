import RestQuery.Clause.Filter

/-!
# Gathering that accepts every item

If each item is accepted or refused on its own, then a list is accepted when all its items are, and
what was gathered is the fold of what each of them adds. In any case what every accepted item
preserves holds in the end.
-/

namespace RestQuery

variable {σ α : Type}

@[simp] theorem Gathered.toExcept_eq_ok_iff {g : Gathered σ} {state : σ} :
    g.toExcept = .ok state ↔ g = .accept state := by
  obtain ⟨s, refusal⟩ := g
  cases refusal <;> simp [Gathered.toExcept, Gathered.accept]

@[simp] theorem Gathered.accept_inj {state state' : σ} :
    Gathered.accept state = Gathered.accept state' ↔ state = state' := by
  simp [Gathered.accept]

@[simp] theorem Gathered.refuse_ne_accept (state state' : σ) (failure : Failure) :
    Gathered.refuse state failure ≠ Gathered.accept state' := by
  simp [Gathered.refuse, Gathered.accept]

theorem gather_eq_accept_iff {take : σ → α → Gathered σ} {ok : α → Prop} {add : σ → α → σ}
    (h : ∀ state item next, take state item = .accept next ↔ ok item ∧ next = add state item)
    {items : List α} {state next : σ} :
    gather take state items = .accept next ↔
      (∀ item ∈ items, ok item) ∧ next = items.foldl add state := by
  induction items generalizing state with
  | nil => simp [gather, eq_comm]
  | cons item items ih =>
    rw [gather]
    split
    · next middle hmiddle =>
      obtain ⟨hok, rfl⟩ := (h state item middle).mp hmiddle
      rw [ih]
      simp [hok]
    · next middle failure hmiddle =>
      have hnot : ¬ ok item := by
        intro hok
        rw [(h state item _).mpr ⟨hok, rfl⟩] at hmiddle
        cases hmiddle
      simp [hnot]

theorem gather_congr {take take' : σ → α → Gathered σ} {items : List α}
    (h : ∀ item ∈ items, ∀ state, take state item = take' state item) (state : σ) :
    gather take state items = gather take' state items := by
  induction items generalizing state with
  | nil => rfl
  | cons item items ih =>
    rw [gather, gather, h item List.mem_cons_self state]
    split
    · exact ih (fun item hitem => h item (List.mem_cons_of_mem _ hitem)) _
    · rfl

/-- Items that add nothing may be left out. -/
theorem gather_filter {take : σ → α → Gathered σ} {p : α → Bool}
    (h : ∀ item state, p item = false → take state item = .accept state) (items : List α)
    (state : σ) : gather take state (items.filter p) = gather take state items := by
  induction items generalizing state with
  | nil => rfl
  | cons item items ih =>
    rw [List.filter_cons]
    cases hkept : p item with
    | true =>
      rw [if_pos rfl, gather, gather]
      split
      · exact ih _
      · rfl
    | false =>
      rw [if_neg (by decide), ih, gather, h item state hkept]
      rfl

/-- What each accepted item preserves holds of all that was gathered. -/
theorem gather_invariant {take : σ → α → Gathered σ} {P : σ → Prop}
    (h : ∀ state item next, P state → take state item = .accept next → P next) {items : List α}
    {state next : σ} (hstate : P state) (hgather : gather take state items = .accept next) :
    P next := by
  induction items generalizing state with
  | nil =>
    obtain rfl := Gathered.accept_inj.mp hgather
    exact hstate
  | cons item items ih =>
    rw [gather] at hgather
    split at hgather
    · next middle hmiddle => exact ih (h state item middle hstate hmiddle) hgather
    · simp at hgather

theorem FilterClause.add_eq_accept_iff {ctx : Context} {clause next : FilterClause}
    {path suffix value : String} : add ctx clause path suffix value = .accept next ↔
      ∃ strategy, ctx.filters.resolve suffix = some strategy ∧
        Glob.isAllowed path ctx.allow.filterable = true ∧
        next = ⟨clause.filters ++
          [⟨(splitPath path).1, path, strategy.build (splitPath path).2 value⟩]⟩ := by
  unfold add
  cases ctx.filters.resolve suffix with
  | none => simp
  | some strategy =>
    by_cases hallowed : Glob.isAllowed path ctx.allow.filterable = true
    · simp [hallowed, eq_comm]
    · simp [hallowed]

end RestQuery
