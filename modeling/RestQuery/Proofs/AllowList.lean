import Mathlib
import RestQuery.Proofs.Columns
import RestQuery.Proofs.Dict
import RestQuery.Proofs.Parsed
import RestQuery.Proofs.Placement
import RestQuery.Proofs.Text.Dotted

/-!
# Allow-lists and what is placed in a plan

Filters and sorts are checked by their whole path and placed by its two parts. Both agree on plain
columns and on paths through relations. They differ where the part before the column is the path of
the root rows itself: `..name` is checked as it stands and placed as `name`.
-/

namespace RestQuery

open Text

namespace Strategy

/-- The strategy constrains no column but the one that it is given. -/
def Faithful (strategy : Strategy) : Prop :=
  ∀ column value, ∀ c ∈ (strategy.predicate column value).columns, c = column

theorem Faithful.build {strategy : Strategy} (h : strategy.Faithful) (column raw : String) :
    ∀ c ∈ (strategy.build column raw).columns, c = column := by
  have hparts : ∀ p ∈ (Text.pieces '|' raw).map (strategy.predicate column),
      ∀ c ∈ p.columns, c = column := by
    simpa only [List.forall_mem_map] using fun value _ => h column value
  unfold Strategy.build
  split
  · next p hp => exact hparts p (by simp [hp])
  · intro c hc
    have hmem : c ∈ Predicate.columnsOf
        ((Text.pieces '|' raw).map (strategy.predicate column)) := by
      split at hc <;> exact hc
    obtain ⟨p, hp, hc⟩ := Predicate.mem_columnsOf.mp hmem
    exact hparts p hp c hc

theorem faithful_equal : equal.Faithful := by
  intro column value c hc
  unfold equal at hc
  dsimp only at hc
  split at hc <;> simpa [Predicate.columns] using hc

theorem faithful_notEqual : notEqual.Faithful := by
  intro column value c hc
  unfold notEqual at hc
  dsimp only at hc
  split at hc <;> simpa [Predicate.columns] using hc

theorem faithful_like (negated : Bool) : (like negated).Faithful := by
  intro column value c hc
  simpa [like, Predicate.columns] using hc

theorem faithful_isIn (negated : Bool) : (isIn negated).Faithful := by
  intro column value c hc
  unfold isIn at hc
  dsimp only at hc
  split at hc
  · cases negated <;> cases hc
  · simpa [Predicate.columns] using hc

theorem faithful_compare (op : Comparison) : (compare op).Faithful := by
  intro column value c hc
  simpa [compare, Predicate.columns] using hc

theorem faithful_default {suffix : String} {strategy : Strategy}
    (h : Registry.default.resolve suffix = some strategy) : strategy.Faithful := by
  have hmem := Dict.mem_of_get?_ofList h
  simp only [List.mem_cons, Prod.mk.injEq, List.not_mem_nil, or_false] at hmem
  rcases hmem with ⟨-, rfl⟩ | ⟨-, rfl⟩ | ⟨-, rfl⟩ | ⟨-, rfl⟩ | ⟨-, rfl⟩ | ⟨-, rfl⟩ | ⟨-, rfl⟩ |
    ⟨-, rfl⟩ | ⟨-, rfl⟩ | ⟨-, rfl⟩
  · exact faithful_equal
  · exact faithful_notEqual
  · exact faithful_like false
  · exact faithful_like true
  · exact faithful_isIn false
  · exact faithful_isIn true
  all_goals exact faithful_compare _

end Strategy

/-! ### What was checked -/

namespace FiledFilter

def column (f : FiledFilter) : String := (splitPath f.path).2

/-- How an accepted filter came about. -/
structure Accepted (ctx : Context) (f : FiledFilter) : Prop where
  allowed : Glob.isAllowed f.path ctx.allow.filterable = true
  filed : f.relation = (splitPath f.path).1
  built : ∃ suffix strategy raw, ctx.filters.resolve suffix = some strategy ∧
    f.predicate = strategy.build f.column raw

end FiledFilter

namespace FilterClause

variable {ctx : Context} {clause next : FilterClause}

theorem add_accepted {path suffix value : String} (h : ∀ f ∈ clause.filters, f.Accepted ctx)
    (hadd : add ctx clause path suffix value = .accept next) :
    ∀ f ∈ next.filters, f.Accepted ctx := by
  obtain ⟨strategy, hstrategy, hallowed, rfl⟩ := add_eq_accept_iff.mp hadd
  refine List.forall_mem_append.mpr ⟨h, List.forall_mem_singleton.mpr ?_⟩
  exact ⟨hallowed, rfl, suffix, strategy, value, hstrategy, rfl⟩

theorem take_accepted {pair : String × String} (h : ∀ f ∈ clause.filters, f.Accepted ctx)
    (htake : take ctx clause pair = .accept next) : ∀ f ∈ next.filters, f.Accepted ctx := by
  unfold take takeBracketed takeFlat at htake
  split at htake
  · split at htake
    · obtain rfl := Gathered.accept_inj.mp htake
      exact h
    · split at htake
      · obtain rfl := Gathered.accept_inj.mp htake
        exact h
      · simp at htake
      · exact add_accepted h htake
      · exact add_accepted h htake
  · split at htake
    · obtain rfl := Gathered.accept_inj.mp htake
      exact h
    · exact add_accepted h htake

theorem accepted_of_read {ps : Parameters} (h : read ctx ps .empty = .accept clause) :
    ∀ f ∈ clause.filters, f.Accepted ctx :=
  gather_invariant (P := fun clause => ∀ f ∈ clause.filters, f.Accepted ctx)
    (fun _ _ _ => take_accepted) (by simp [empty]) h

end FilterClause

namespace SortClause

variable {ctx : Context} {clause next : SortClause}

/-- What is checked of a sort key: it is the score column, or its whole path is allowed. -/
def Checked (ctx : Context) (key : SortKey) : Prop :=
  key.path = ctx.settings.scoreColumn ∨ Glob.isAllowed key.path ctx.allow.sortable = true

theorem take_checked {scored : Bool} {token : String} (h : ∀ key ∈ clause.sorts, Checked ctx key)
    (htake : take ctx scored clause token = .accept next) :
    ∀ key ∈ next.sorts, Checked ctx key := by
  unfold take at htake
  dsimp only at htake
  by_cases hscore : (keyOf token).path = ctx.settings.scoreColumn
  · rw [if_pos hscore] at htake
    split at htake
    · obtain rfl := Gathered.accept_inj.mp htake
      exact List.forall_mem_append.mpr ⟨h, List.forall_mem_singleton.mpr (Or.inl hscore)⟩
    · simp at htake
  · rw [if_neg hscore] at htake
    split at htake
    · next hallowed =>
      obtain rfl := Gathered.accept_inj.mp htake
      exact List.forall_mem_append.mpr ⟨h, List.forall_mem_singleton.mpr (Or.inr hallowed.2)⟩
    · simp at htake

theorem checked_of_read {ps : Parameters} (h : read ctx ps .empty = .accept clause) :
    ∀ key ∈ clause.sorts, Checked ctx key := by
  unfold read at h
  split at h
  · exact gather_invariant (P := fun clause => ∀ key ∈ clause.sorts, Checked ctx key)
      (fun _ _ _ => take_checked) (by simp [empty]) h
  · obtain rfl := Gathered.accept_inj.mp h
    simp [empty]

end SortClause

@[simp] theorem FilterClause.mem_filed {clause : FilterClause} {path : String} {f : FiledFilter} :
    f ∈ clause.filed path ↔ f ∈ clause.filters ∧ f.relation = path := by
  simp [filed]

@[simp] theorem SortClause.mem_filed {clause : SortClause} {path : String} {key : SortKey} :
    key ∈ clause.filed path ↔ key ∈ clause.sorts ∧ (splitPath key.path).1 = path := by
  simp [filed]

theorem eq_dotted_of_splitPath_fst {path relation : String} (h : (splitPath path).1 = relation)
    (hne : relation ≠ rootPath) : path = relation ++ "." ++ (splitPath path).2 := by
  rcases (eq_or_eq_dotted_of_splitPath path).2 with ⟨-, hroot⟩ | hpath
  · exact absurd (h.symm.trans hroot) hne
  · rw [← h]
    exact hpath

namespace Request

/-- What is placed in a plan is allowed at the place where it stands. -/
structure Enforced (r : Request) : Prop where
  rootFilters : ∀ f ∈ r.clauses.filter.filed rootPath,
    Glob.isAllowed f.column r.context.allow.filterable = true
  loadFilters : ∀ path ≠ rootPath, ∀ f ∈ r.clauses.filter.filed path,
    Glob.isAllowed (path ++ "." ++ f.column) r.context.allow.filterable = true
  rootOrders : ∀ order ∈ r.apply.plan.orders, order.column = r.handler.settings.scoreColumn ∨
    Glob.isAllowed order.column r.context.allow.sortable = true
  loadOrders : ∀ path, ∀ order ∈ (r.apply.plan.loadAt path).orders,
    Glob.isAllowed (path ++ "." ++ order.column) r.context.allow.sortable = true

section Parsed

variable {handler : Handler} {entityName : String} {ps : Parameters} {r : Request}
  (h : r.Parsed handler entityName none ps)

include h

theorem Parsed.predicates_eq : r.apply.plan.predicates =
    (r.clauses.filter.filed rootPath).map FiledFilter.predicate ++
      r.clauses.search.predicates := by
  rw [h.apply_plan, Clauses.apply_predicates]
  rfl

theorem Parsed.loadPredicates_eq (path : String) :
    (r.apply.plan.loadAt path).predicates = r.clauses.filter.loadPredicates path := by
  rw [h.apply_plan, Clauses.loadAt_apply]
  rfl

theorem Parsed.orders_eq :
    r.apply.plan.orders = (r.clauses.sort.filed rootPath).map SortKey.order := by
  rw [h.apply_plan, Clauses.apply_orders]
  rfl

theorem Parsed.loadOrders_eq (path : String) :
    (r.apply.plan.loadAt path).orders = r.clauses.sort.loadOrders path := by
  rw [h.apply_plan, Clauses.loadAt_apply]
  rfl

theorem Parsed.rootFilters_iff :
    (∀ f ∈ r.clauses.filter.filed rootPath,
      Glob.isAllowed f.column r.context.allow.filterable = true) ↔
    ∀ f ∈ r.clauses.filter.filters, ∀ column, Undotted column →
      f.path = rootPath ++ "." ++ column →
      Glob.isAllowed column r.context.allow.filterable = true := by
  have haccepted := FilterClause.accepted_of_read (h.read.filter rfl)
  constructor
  · intro hroot f hf column hcolumn hpath
    have hsplit : splitPath f.path = (rootPath, column) := by
      rw [hpath, splitPath_dotted rootPath hcolumn]
    have hfiled : f ∈ r.clauses.filter.filed rootPath :=
      FilterClause.mem_filed.mpr ⟨hf, by rw [(haccepted f hf).filed, hsplit]⟩
    simpa [FiledFilter.column, hsplit] using hroot f hfiled
  · intro hdots f hf
    obtain ⟨hf, hrelation⟩ := FilterClause.mem_filed.mp hf
    rw [(haccepted f hf).filed] at hrelation
    obtain ⟨hundotted, ⟨hpath, -⟩ | hpath⟩ := eq_or_eq_dotted_of_splitPath f.path
    · rw [FiledFilter.column, ← hpath]
      exact (haccepted f hf).allowed
    · rw [hrelation] at hpath
      exact hdots f hf _ hundotted hpath

theorem Parsed.loadFilters (path : String) (hpath : path ≠ rootPath) :
    ∀ f ∈ r.clauses.filter.filed path,
      Glob.isAllowed (path ++ "." ++ f.column) r.context.allow.filterable = true := by
  intro f hf
  obtain ⟨hf, hrelation⟩ := FilterClause.mem_filed.mp hf
  have haccepted := FilterClause.accepted_of_read (h.read.filter rfl) f hf
  rw [haccepted.filed] at hrelation
  rw [FiledFilter.column, ← eq_dotted_of_splitPath_fst hrelation hpath]
  exact haccepted.allowed

theorem Parsed.rootOrders_iff :
    (∀ order ∈ r.apply.plan.orders, order.column = r.handler.settings.scoreColumn ∨
      Glob.isAllowed order.column r.context.allow.sortable = true) ↔
    ∀ key ∈ r.clauses.sort.sorts, ∀ column, Undotted column →
      key.path = rootPath ++ "." ++ column → column = r.handler.settings.scoreColumn ∨
        Glob.isAllowed column r.context.allow.sortable = true := by
  have hchecked := SortClause.checked_of_read h.read.sort
  rw [h.orders_eq, List.forall_mem_map]
  constructor
  · intro hroot key hkey column hcolumn hpath
    have hsplit : splitPath key.path = (rootPath, column) := by
      rw [hpath, splitPath_dotted rootPath hcolumn]
    have hfiled : key ∈ r.clauses.sort.filed rootPath :=
      SortClause.mem_filed.mpr ⟨hkey, by rw [hsplit]⟩
    simpa [SortKey.order, hsplit] using hroot key hfiled
  · intro hdots key hkey
    obtain ⟨hkey, hrelation⟩ := SortClause.mem_filed.mp hkey
    obtain ⟨hundotted, ⟨hpath, -⟩ | hpath⟩ := eq_or_eq_dotted_of_splitPath key.path
    · rw [SortKey.order, ← hpath]
      exact hchecked key hkey
    · rw [hrelation] at hpath
      exact hdots key hkey _ hundotted hpath

theorem Parsed.loadOrders_iff :
    (∀ path, ∀ order ∈ (r.apply.plan.loadAt path).orders,
      Glob.isAllowed (path ++ "." ++ order.column) r.context.allow.sortable = true) ↔
    ∀ key ∈ r.clauses.sort.sorts, key.path = r.handler.settings.scoreColumn →
      (splitPath key.path).1 ≠ rootPath →
      Glob.isAllowed key.path r.context.allow.sortable = true := by
  have hchecked := SortClause.checked_of_read h.read.sort
  simp only [h.loadOrders_eq, SortClause.loadOrders]
  constructor
  · intro hload key hkey _ hrelation
    have hfiled := hload (splitPath key.path).1 key.order (by
      rw [if_neg hrelation]
      exact List.mem_map_of_mem (SortClause.mem_filed.mpr ⟨hkey, rfl⟩))
    rwa [SortKey.order, ← eq_dotted_of_splitPath_fst rfl hrelation] at hfiled
  · intro hscore path order horder
    by_cases hroot : path = rootPath
    · simp [hroot] at horder
    · rw [if_neg hroot] at horder
      obtain ⟨key, hkey, rfl⟩ := List.mem_map.mp horder
      obtain ⟨hkey, hrelation⟩ := SortClause.mem_filed.mp hkey
      rw [SortKey.order, ← eq_dotted_of_splitPath_fst hrelation hroot]
      rcases hchecked key hkey with hpath | hallowed
      · exact hscore key hkey hpath (by rwa [hrelation])
      · exact hallowed

end Parsed

/-- A request for a collection places its filters and sorts where the path that was checked says,
each for one column, and exactly two shapes of a path escape the check: a part before the column
that is the path of the root rows, and the score column where it is a column of related rows. -/
theorem enforced_iff {handler : Handler} {entityName : String} {ps : Parameters} {r : Request}
    (h : handler.parse entityName none ps = .ok r) :
    r.apply.plan.predicates = (r.clauses.filter.filed rootPath).map FiledFilter.predicate ++
        r.clauses.search.predicates ∧
      (∀ path, (r.apply.plan.loadAt path).predicates = r.clauses.filter.loadPredicates path) ∧
      (∀ f ∈ r.clauses.filter.filters, ∃ suffix strategy raw,
        handler.filters.resolve suffix = some strategy ∧
        f.predicate = strategy.build f.column raw ∧
        (strategy.Faithful → ∀ c ∈ f.predicate.columns, c = f.column)) ∧
      (r.Enforced ↔
        (∀ f ∈ r.clauses.filter.filters, ∀ column, Undotted column →
          f.path = rootPath ++ "." ++ column →
          Glob.isAllowed column r.context.allow.filterable = true) ∧
        (∀ key ∈ r.clauses.sort.sorts, ∀ column, Undotted column →
          key.path = rootPath ++ "." ++ column → column = r.handler.settings.scoreColumn ∨
            Glob.isAllowed column r.context.allow.sortable = true) ∧
        ∀ key ∈ r.clauses.sort.sorts, key.path = r.handler.settings.scoreColumn →
          (splitPath key.path).1 ≠ rootPath →
          Glob.isAllowed key.path r.context.allow.sortable = true) := by
  have hparsed := parsed_of_parse h
  obtain rfl := hparsed.handler_eq
  refine ⟨hparsed.predicates_eq, hparsed.loadPredicates_eq, ?_, ?_⟩
  · intro f hf
    obtain ⟨suffix, strategy, raw, hstrategy, hbuilt⟩ :=
      (FilterClause.accepted_of_read (hparsed.read.filter rfl) f hf).built
    refine ⟨suffix, strategy, raw, hstrategy, hbuilt, fun hfaithful => ?_⟩
    rw [hbuilt]
    exact hfaithful.build f.column raw
  · constructor
    · intro henforced
      exact ⟨hparsed.rootFilters_iff.mp henforced.rootFilters,
        hparsed.rootOrders_iff.mp henforced.rootOrders,
        hparsed.loadOrders_iff.mp henforced.loadOrders⟩
    · rintro ⟨hfilters, hsorts, hscore⟩
      exact ⟨hparsed.rootFilters_iff.mpr hfilters, hparsed.loadFilters,
        hparsed.rootOrders_iff.mpr hsorts, hparsed.loadOrders_iff.mpr hscore⟩

/-! ### Filters by name -/

def postsHandler (allow : AllowLists) : Handler :=
  ⟨{ Settings.default with allow := allow }, Schema.empty.add (.ofTable "posts" "posts"), .default⟩

theorem enforced_iff_of_permissive :
    ∃ r, (postsHandler .permissive).parse "posts" none
        (.ofPairs [("filter[title]", "x"), ("sort", "-id")]) = .ok r ∧ r.Enforced ∧
      ∀ f ∈ r.clauses.filter.filters, ∀ c ∈ f.predicate.columns, c = f.column := by
  have hread : ((postsHandler .permissive).parse "posts" none
      (.ofPairs [("filter[title]", "x"), ("sort", "-id")])).toOption.map
        (fun r => r.context.allow) = some .permissive := by decide +kernel
  cases hparse : (postsHandler .permissive).parse "posts" none
      (.ofPairs [("filter[title]", "x"), ("sort", "-id")]) with
  | error failure => simp [hparse, Except.toOption] at hread
  | ok r =>
    have hallow : r.context.allow = .permissive := by simpa [hparse, Except.toOption] using hread
    have hall : ∀ path, Glob.isAllowed path ["*"] = true := by simp [Glob.isAllowed]
    obtain ⟨-, -, hfaithful, henforced⟩ := enforced_iff hparse
    refine ⟨r, rfl, henforced.mpr ⟨?_, ?_, ?_⟩, ?_⟩
    · intro f _ column _ _
      rw [hallow]
      exact hall column
    · intro key _ column _ _
      rw [hallow]
      exact Or.inr (hall column)
    · intro key _ _ _
      rw [hallow]
      exact hall key.path
    · intro f hf
      obtain ⟨suffix, strategy, raw, hstrategy, -, hcolumns⟩ := hfaithful f hf
      exact hcolumns (Strategy.faithful_default hstrategy)

/-- Names of related rows may be filtered, and so the names of the posts are. -/
theorem root_name_filtered :
    ∃ r, (postsHandler { AllowLists.default with filterable := ["*.name"] }).parse "posts" none
        (.ofPairs [("filter[..name]", "x")]) = .ok r ∧
      r.apply.plan.predicates = [.compare "name" .eq "x"] ∧
      r.context.allow.filterable = ["*.name"] ∧ Glob.isAllowed "name" ["*.name"] = false ∧
      ¬ r.Enforced := by
  have hread : ((postsHandler { AllowLists.default with filterable := ["*.name"] }).parse "posts"
      none (.ofPairs [("filter[..name]", "x")])).toOption.map (fun r =>
        (r.apply.plan.predicates, r.context.allow.filterable,
          r.clauses.filter.filters.map fun f => (f.relation, f.path))) =
      some ([.compare "name" .eq "x"], ["*.name"], [(".", "..name")]) := by cbv
  cases hparse : (postsHandler { AllowLists.default with filterable := ["*.name"] }).parse "posts"
      none (.ofPairs [("filter[..name]", "x")]) with
  | error failure => simp [hparse, Except.toOption] at hread
  | ok r =>
    simp only [hparse, Except.toOption, Option.map_some, Option.some.injEq, Prod.mk.injEq] at hread
    obtain ⟨hpredicates, hallow, hfilters⟩ := hread
    have hname : Glob.isAllowed "name" ["*.name"] = false := by decide
    refine ⟨r, rfl, hpredicates, hallow, hname, fun henforced => ?_⟩
    have hfiled : ∃ f ∈ r.clauses.filter.filters, (f.relation, f.path) = (".", "..name") := by
      rw [← List.mem_map, hfilters]
      exact List.mem_singleton_self _
    obtain ⟨f, hf, hshape⟩ := hfiled
    obtain ⟨hrelation, hpath⟩ := Prod.mk.inj hshape
    have hallowed := henforced.rootFilters f (FilterClause.mem_filed.mpr ⟨hf, hrelation⟩)
    have hcolumn : f.column = "name" := by
      rw [FiledFilter.column, hpath]
      decide
    rw [hallow, hcolumn, hname] at hallowed
    cases hallowed

end Request

end RestQuery
