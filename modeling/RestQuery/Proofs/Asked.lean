import RestQuery.Proofs.AgreeOn
import RestQuery.Proofs.Parameters
import RestQuery.Proofs.Parsed
import RestQuery.Proofs.Placement

/-!
# What filters and sorts a request asks for

Every filter parameter and every token of the sort list is read on its own. A request is accepted
only if all of them can be read, and then its clauses hold one item for each, in the order of the
request. So the part of a clause that is filed under a relation path is known from the parameters.
-/

namespace RestQuery

open Text

@[simp] theorem Settings.stripLead_param (settings : Settings) (name : String) :
    stripLead settings.keyPrefix (settings.param name) = some name :=
  stripLead_eq_some_iff.mpr rfl

namespace FilterClause

def filing (ctx : Context) (path suffix value : String) : Except Failure (Option FiledFilter) :=
  match ctx.filters.resolve suffix with
  | none => .error (.parameter (.unknownSuffix suffix))
  | some strategy =>
    if Glob.isAllowed path ctx.allow.filterable then
      .ok (some ⟨(splitPath path).1, path, strategy.build (splitPath path).2 value⟩)
    else .error (.filter path)

/-- The path and the suffix that a parameter name gives, if it is one of a filter. -/
def pathOfKey (ctx : Context) (key : String) : Except Failure (Option (String × String)) :=
  match ctx.settings.filterStyle with
  | .bracketed =>
    match stripLead ctx.settings.keyPrefix key with
    | none => .ok none
    | some name =>
      match FilterKey.read name.toList with
      | .unrelated => .ok none
      | .malformed => .error (.parameter (.malformedFilter key))
      | .filter (some suffix) path => .ok (some (path, suffix))
      | .filter none path => .ok (some (ctx.filters.splitSuffix path))
  | .flat =>
    if ctx.settings.isReserved key then .ok none else .ok (some (ctx.filters.splitSuffix key))

def reading (ctx : Context) (pair : String × String) : Except Failure (Option FiledFilter) :=
  match pathOfKey ctx pair.1 with
  | .ok (some (path, suffix)) => filing ctx path suffix pair.2
  | .ok none => .ok none
  | .error failure => .error failure

def filterOf (ctx : Context) (pair : String × String) : Option FiledFilter :=
  (reading ctx pair).toOption.join

variable {ctx : Context} {ps : Parameters} {clause next : FilterClause}

theorem add_eq (path suffix value : String) :
    add ctx clause path suffix value =
      match filing ctx path suffix value with
      | .ok filter => .accept ⟨clause.filters ++ filter.toList⟩
      | .error failure => .refuse clause failure := by
  unfold add filing
  cases ctx.filters.resolve suffix with
  | none => rfl
  | some strategy =>
    dsimp only
    split <;> rfl

theorem take_eq (pair : String × String) :
    take ctx clause pair =
      match reading ctx pair with
      | .ok filter => .accept ⟨clause.filters ++ filter.toList⟩
      | .error failure => .refuse clause failure := by
  have hnone : Gathered.accept clause =
      .accept ⟨clause.filters ++ (none : Option FiledFilter).toList⟩ := by simp
  unfold take reading pathOfKey takeBracketed takeFlat
  cases ctx.settings.filterStyle with
  | bracketed =>
    dsimp only
    cases stripLead ctx.settings.keyPrefix pair.1 with
    | none => exact hnone
    | some name =>
      dsimp only
      cases FilterKey.read name.toList with
      | unrelated => exact hnone
      | malformed => rfl
      | filter suffix path => cases suffix <;> exact add_eq ..
  | flat =>
    dsimp only
    split
    · exact hnone
    · exact add_eq ..

theorem read_eq_accept_iff :
    read ctx ps .empty = .accept clause ↔
      (∀ pair ∈ ps.pairs, ∃ filter, reading ctx pair = .ok filter) ∧
        clause.filters = ps.pairs.filterMap (filterOf ctx) := by
  have htake : ∀ state pair next, take ctx state pair = .accept next ↔
      (∃ filter, reading ctx pair = .ok filter) ∧
        next = ⟨state.filters ++ (filterOf ctx pair).toList⟩ := by
    intro state pair next
    rw [take_eq, filterOf]
    cases reading ctx pair with
    | error failure => simp
    | ok filter => simp [Except.toOption, eq_comm]
  have hfold : ∀ (pairs : List (String × String)) (state : FilterClause),
      pairs.foldl (fun state pair => ⟨state.filters ++ (filterOf ctx pair).toList⟩) state =
        ⟨state.filters ++ pairs.filterMap (filterOf ctx)⟩ := by
    intro pairs
    induction pairs with
    | nil => simp
    | cons pair pairs ih =>
      intro state
      rw [List.foldl_cons, ih, List.filterMap_cons]
      cases filterOf ctx pair <;> simp
  rw [read, gather_eq_accept_iff htake, hfold]
  obtain ⟨filters⟩ := clause
  simp [empty]

end FilterClause

namespace SortClause

def tokensOf (ctx : Context) (ps : Parameters) : List String :=
  match ctx.param? ps ["sort"] with
  | some value => listed value
  | none => []

/-- Whether a token is accepted: the score column where a search yields a score, any other path
where it is allowed. -/
def Allowed (ctx : Context) (scored : Bool) (token : String) : Prop :=
  (keyOf token).path ≠ "" ∧
    (if (keyOf token).path = ctx.settings.scoreColumn then scored
      else Glob.isAllowed (keyOf token).path ctx.allow.sortable) = true

variable {ctx : Context} {ps : Parameters} {clause next : SortClause}

theorem take_eq_accept_iff {scored : Bool} {token : String} :
    take ctx scored clause token = .accept next ↔
      Allowed ctx scored token ∧ next = ⟨clause.sorts ++ [keyOf token]⟩ := by
  unfold take Allowed
  dsimp only
  generalize (if (keyOf token).path = ctx.settings.scoreColumn then scored
    else Glob.isAllowed (keyOf token).path ctx.allow.sortable) = allowed
  split
  · next haccepted => simp [haccepted, eq_comm]
  · next hrefused => simp [hrefused]

theorem gather_take_eq_accept_iff {scored : Bool} {tokens : List String} :
    gather (take ctx scored) clause tokens = .accept next ↔
      (∀ token ∈ tokens, Allowed ctx scored token) ∧
        next.sorts = clause.sorts ++ tokens.map keyOf := by
  have hfold : ∀ (tokens : List String) (state : SortClause),
      tokens.foldl (fun state token => ⟨state.sorts ++ [keyOf token]⟩) state =
        ⟨state.sorts ++ tokens.map keyOf⟩ := by
    intro tokens
    induction tokens with
    | nil => simp
    | cons token tokens ih =>
      intro state
      rw [List.foldl_cons, ih]
      simp
  have htake : ∀ state token next, take ctx scored state token = .accept next ↔
      Allowed ctx scored token ∧ next = ⟨state.sorts ++ [keyOf token]⟩ :=
    fun _ _ _ => take_eq_accept_iff
  rw [gather_eq_accept_iff htake, hfold]
  obtain ⟨sorts⟩ := next
  simp

theorem read_eq_accept_iff :
    read ctx ps .empty = .accept clause ↔
      (∀ token ∈ tokensOf ctx ps, Allowed ctx (scoreSortable ctx ps) token) ∧
        clause.sorts = (tokensOf ctx ps).map keyOf := by
  unfold read tokensOf
  cases ctx.param? ps ["sort"] with
  | none =>
    obtain ⟨sorts⟩ := clause
    simp [empty, eq_comm]
  | some value =>
    exact gather_take_eq_accept_iff

end SortClause

end RestQuery
