import RestQuery.Proofs.Gather
import RestQuery.Request

/-!
# What an accepted request holds

A request is accepted when each of its clauses is, when its options can be read, and when its
filters and sorts of related rows stay on expanded relations. Then it holds what every clause read,
and its plan is still the one it began with.
-/

namespace RestQuery

theorem bind_eq_ok_iff {ε α β : Type} {x : Except ε α} {f : α → Except ε β} {b : β} :
    (x >>= f) = .ok b ↔ ∃ a, x = .ok a ∧ f a = .ok b := by
  cases x with
  | error e => simp [bind, Except.bind]
  | ok a => simp [bind, Except.bind]

theorem pure_eq_ok_iff {ε α : Type} {a b : α} :
    (pure a : Except ε α) = .ok b ↔ a = b := by
  simp [pure, Except.pure]

theorem exists_ok_of_map_toOption {ε α β : Type} {x : Except ε α} {f : α → β} {b : β}
    (h : x.toOption.map f = some b) : ∃ a, x = .ok a ∧ f a = b := by
  cases x with
  | error e => simp [Except.toOption] at h
  | ok a => exact ⟨a, rfl, by simpa [Except.toOption] using h⟩

/-- What the clauses of an accepted request were read from. -/
structure Clauses.Read (ctx : Context) (ps : Parameters) (multiple : Bool) (c : Clauses) :
    Prop where
  select : SelectClause.read ctx ps .empty = .accept c.select
  filter : multiple = true → FilterClause.read ctx ps .empty = .accept c.filter
  noFilter : multiple = false → c.filter = .empty
  sort : SortClause.read ctx ps .empty = .accept c.sort
  expand : ExpandClause.read ctx ps .empty = .accept c.expand
  search : multiple = true → SearchClause.read ctx ps .empty = .accept c.search
  noSearch : multiple = false → c.search = .empty
  page : multiple = true → PageClause.read ctx ps .empty = .accept c.page
  noPage : multiple = false → c.page = .empty

theorem Clauses.read_eq_ok {ctx : Context} {ps : Parameters} {multiple : Bool} {c : Clauses}
    (h : Clauses.read ctx ps multiple = .ok c) : Clauses.Read ctx ps multiple c := by
  cases multiple with
  | false =>
    simp only [Clauses.read, Bool.false_eq_true, if_false, bind_eq_ok_iff, pure_eq_ok_iff,
      Gathered.toExcept_eq_ok_iff, Except.ok.injEq, exists_eq_left'] at h
    obtain ⟨select, hselect, sort, hsort, expand, hexpand, rfl⟩ := h
    exact ⟨hselect, by simp, fun _ => rfl, hsort, hexpand, by simp, fun _ => rfl, by simp,
      fun _ => rfl⟩
  | true =>
    simp only [Clauses.read, if_true, bind_eq_ok_iff, pure_eq_ok_iff,
      Gathered.toExcept_eq_ok_iff] at h
    obtain ⟨select, hselect, filter, hfilter, sort, hsort, expand, hexpand, search, hsearch, page,
      hpage, rfl⟩ := h
    exact ⟨hselect, fun _ => hfilter, by simp, hsort, hexpand, fun _ => hsearch, by simp,
      fun _ => hpage, by simp⟩

theorem Clauses.Read.read_eq {ctx : Context} {ps : Parameters} {multiple : Bool} {c : Clauses}
    (h : Clauses.Read ctx ps multiple c) : Clauses.read ctx ps multiple = .ok c := by
  obtain ⟨select, filter, sort, expand, search, page⟩ := c
  obtain ⟨hselect, hfilter, hnoFilter, hsort, hexpand, hsearch, hnoSearch, hpage, hnoPage⟩ := h
  cases multiple with
  | false =>
    obtain rfl := hnoFilter rfl
    obtain rfl := hnoSearch rfl
    obtain rfl := hnoPage rfl
    simp only [Clauses.read, Bool.false_eq_true, if_false, hselect, hsort, hexpand]
    rfl
  | true =>
    simp only [Clauses.read, if_true, hselect, hfilter rfl, hsort, hexpand, hsearch rfl, hpage rfl]
    rfl

namespace Request

def context (r : Request) : Context := r.handler.contextFor r.entity

/-- What is known of a request that was just accepted. -/
structure Parsed (handler : Handler) (entityName : String) (id : Option String) (ps : Parameters)
    (r : Request) : Prop where
  handler_eq : r.handler = handler
  registered : handler.schema.entity? entityName = some r.entity
  params_eq : r.params = ps
  read : Clauses.Read r.context ps id.isNone r.clauses
  options : Handler.optionsOf r.context ps = .ok r.options
  checked : r.clauses.check = .ok ()
  base_eq : r.base = Handler.basePlan r.entity id
  plan_eq : r.plan = r.base
  applied_eq : r.applied = false
  multiple_eq : r.multiple = id.isNone

variable {handler : Handler} {entityName : String} {id : Option String} {ps : Parameters}
  {r : Request}

theorem parsed_of_parse (h : handler.parse entityName id ps = .ok r) :
    r.Parsed handler entityName id ps := by
  unfold Handler.parse at h
  split at h
  · cases h
  · next entity hentity =>
    simp only [bind_eq_ok_iff, pure_eq_ok_iff] at h
    obtain ⟨clauses, hclauses, options, hoptions, ⟨⟩, hcheck, rfl⟩ := h
    exact ⟨rfl, hentity, rfl, Clauses.read_eq_ok hclauses, hoptions, hcheck, rfl, rfl, rfl, rfl⟩

theorem Parsed.parse_eq (h : r.Parsed handler entityName id ps) :
    handler.parse entityName id ps = .ok r := by
  obtain ⟨rfl, hentity, rfl, hread, hoptions, hcheck, hbase, hplan, happlied, hmultiple⟩ := h
  have hresult : r = ⟨r.handler, r.entity, r.params, r.clauses, r.options,
      Handler.basePlan r.entity id, Handler.basePlan r.entity id, false, id.isNone⟩ := by
    rw [← hbase, ← happlied, ← hmultiple]
    exact congrArg (fun plan => { r with plan := plan }) hplan
  unfold Handler.parse
  rw [hentity]
  change (Clauses.read r.context r.params id.isNone >>= _) = _
  rw [hread.read_eq]
  change (Handler.optionsOf r.context r.params >>= _) = _
  rw [hoptions]
  change (r.clauses.check >>= _) = _
  rw [hcheck, hresult]
  rfl

/-- What is consulted depends on the handler and the entity alone. -/
theorem Parsed.context_eq (h : r.Parsed handler entityName id ps) {id' : Option String}
    {ps' : Parameters} {r' : Request} (h' : r'.Parsed handler entityName id' ps') :
    r'.context = r.context := by
  have hentity : r'.entity = r.entity :=
    Option.some.inj (h'.registered.symm.trans h.registered)
  rw [context, context, h'.handler_eq, h.handler_eq, hentity]

/-- A request is accepted with other clauses and parameters, if these clauses are read from these
parameters with the same options. -/
theorem Parsed.reread (h : r.Parsed handler entityName id ps) {ps' : Parameters}
    {clauses : Clauses} (hread : Clauses.Read r.context ps' id.isNone clauses)
    (hoptions : Handler.optionsOf r.context ps' = Handler.optionsOf r.context ps)
    (hcheck : clauses.check = .ok ()) :
    { r with params := ps', clauses := clauses }.Parsed handler entityName id ps' :=
  { h with params_eq := rfl, read := hread, options := hoptions.trans h.options, checked := hcheck }

theorem Parsed.apply_plan (h : r.Parsed handler entityName id ps) :
    r.apply.plan = r.clauses.apply (Handler.basePlan r.entity id) := by
  simp [Request.apply, h.applied_eq, h.plan_eq, h.base_eq]

end Request

end RestQuery
