import RestQuery.Proofs.Asked
import RestQuery.Proofs.Calls
import RestQuery.Proofs.Load.Resolved
import RestQuery.Proofs.Text.Listed

/-!
# Filters and sorts of related rows

A filter or a sort of a path with dots is meant for the rows of the relation before the last dot. It
is put on the load of this relation, and only the statement for its rows has it; the root rows have
the filters and sorts of plain columns. So a request without those of related rows selects and
counts the same root rows. One relation path is an exception: `.`, which stands for the root rows.
-/

namespace RestQuery

open Text Sql

/-- The relation path before the last dot; a plain column has none. -/
def relationPart (path : String) : Option String := (cutLast '.' path).map Prod.fst

theorem splitPath_fst (path : String) : (splitPath path).1 = (relationPart path).getD rootPath := by
  unfold splitPath relationPart
  cases cutLast '.' path <;> rfl

theorem splitPath_fst_eq_iff {path relation : String} (h : relation ≠ rootPath) :
    (splitPath path).1 = relation ↔ relationPart path = some relation := by
  rw [splitPath_fst]
  cases relationPart path with
  | none => simp [h.symm]
  | some part => simp

theorem splitPath_fst_eq_rootPath_iff {path : String} :
    (splitPath path).1 = rootPath ↔ relationPart path ∈ [none, some rootPath] := by
  rw [splitPath_fst]
  cases relationPart path <;> simp

/-! ### What is asked of the rows of a relation -/

namespace FilterClause

/-- The predicates of the filters whose paths have some relation parts, in the order of the
request. -/
def asked (ctx : Context) (ps : Parameters) (parts : List (Option String)) : List Predicate :=
  ((ps.pairs.filterMap (filterOf ctx)).filter fun f => relationPart f.path ∈ parts).map
    FiledFilter.predicate

variable {ctx : Context} {ps : Parameters} {clause : FilterClause}

theorem exists_path_of_filterOf {pair : String × String} {f : FiledFilter}
    (h : filterOf ctx pair = some f) :
    (∃ suffix, pathOfKey ctx pair.1 = .ok (some (f.path, suffix))) ∧
      f.relation = (splitPath f.path).1 := by
  unfold filterOf reading at h
  split at h
  · next path suffix hpath =>
    unfold filing at h
    split at h
    · cases h
    · split at h
      · obtain rfl := Option.some.inj h
        exact ⟨⟨suffix, hpath⟩, rfl⟩
      · cases h
  · cases h
  · cases h

theorem filed_eq (h : read ctx ps .empty = .accept clause) {relation : String}
    {parts : List (Option String)}
    (hparts : ∀ path, (splitPath path).1 = relation ↔ relationPart path ∈ parts) :
    (clause.filed relation).map FiledFilter.predicate = asked ctx ps parts := by
  rw [filed, asked, (read_eq_accept_iff.mp h).2]
  congr 1
  refine List.filter_congr fun f hf => ?_
  obtain ⟨pair, -, hpair⟩ := List.mem_filterMap.mp hf
  rw [(exists_path_of_filterOf hpair).2]
  exact decide_eq_decide.mpr (hparts f.path)

theorem asked_congr (h : read ctx ps .empty = .accept clause) {parts parts' : List (Option String)}
    (hparts : ∀ f ∈ clause.filters, relationPart f.path ∈ parts ↔ relationPart f.path ∈ parts') :
    asked ctx ps parts = asked ctx ps parts' := by
  rw [(read_eq_accept_iff.mp h).2] at hparts
  rw [asked, asked, List.filter_congr fun f hf => decide_eq_decide.mpr (hparts f hf)]

theorem asked_eq_nil_iff (h : read ctx ps .empty = .accept clause) {parts : List (Option String)} :
    asked ctx ps parts = [] ↔ ∀ f ∈ clause.filters, relationPart f.path ∉ parts := by
  rw [(read_eq_accept_iff.mp h).2, asked, List.map_eq_nil_iff, List.filter_eq_nil_iff]
  simp only [decide_eq_true_eq]

end FilterClause

namespace SortClause

def asked (ctx : Context) (ps : Parameters) (parts : List (Option String)) : List Order :=
  (((tokensOf ctx ps).map keyOf).filter fun key => relationPart key.path ∈ parts).map SortKey.order

variable {ctx : Context} {ps : Parameters} {clause : SortClause}

theorem filed_eq (h : read ctx ps .empty = .accept clause) {relation : String}
    {parts : List (Option String)}
    (hparts : ∀ path, (splitPath path).1 = relation ↔ relationPart path ∈ parts) :
    (clause.filed relation).map SortKey.order = asked ctx ps parts := by
  rw [filed, asked, (read_eq_accept_iff.mp h).2]
  congr 1
  exact List.filter_congr fun key _ => decide_eq_decide.mpr (hparts key.path)

theorem asked_congr (h : read ctx ps .empty = .accept clause) {parts parts' : List (Option String)}
    (hparts : ∀ key ∈ clause.sorts,
      relationPart key.path ∈ parts ↔ relationPart key.path ∈ parts') :
    asked ctx ps parts = asked ctx ps parts' := by
  rw [(read_eq_accept_iff.mp h).2] at hparts
  rw [asked, asked, List.filter_congr fun key hkey => decide_eq_decide.mpr (hparts key hkey)]

theorem asked_eq_nil_iff (h : read ctx ps .empty = .accept clause) {parts : List (Option String)} :
    asked ctx ps parts = [] ↔ ∀ key ∈ clause.sorts, relationPart key.path ∉ parts := by
  rw [(read_eq_accept_iff.mp h).2, asked, List.map_eq_nil_iff, List.filter_eq_nil_iff]
  simp only [decide_eq_true_eq]

end SortClause

namespace Request

/-- The filters and sorts of a request where they belong: on the root rows those of some relation
parts, with the scopes and the search, and on the loads those of their relations. -/
structure Places (r : Request) (calls : List Call) (rootParts : List (Option String))
    (plan : Plan) : Prop where
  rootPredicates : plan.predicates = r.base.predicates ++ earlyScopes calls ++
    FilterClause.asked r.context r.params rootParts ++ r.clauses.search.predicates ++
    lateScopes calls
  rootOrders : plan.orders = SortClause.asked r.context r.params rootParts
  loadPredicates : ∀ path, some path ∉ rootParts → (plan.loadAt path).predicates =
    FilterClause.asked r.context r.params [some path]
  loadOrders : ∀ path, some path ∉ rootParts → (plan.loadAt path).orders =
    SortClause.asked r.context r.params [some path]

section

variable {handler : Handler} {entityName : String} {ps : Parameters} {r : Request}
  (h : r.Parsed handler entityName none ps) (calls : List Call)

include h

theorem Parsed.read_filter :
    FilterClause.read r.context r.params .empty = .accept r.clauses.filter := by
  rw [h.params_eq]
  exact h.read.filter rfl

theorem Parsed.read_sort :
    SortClause.read r.context r.params .empty = .accept r.clauses.sort := by
  rw [h.params_eq]
  exact h.read.sort

/-- The path of the root rows counts as the relation part of a plain column. -/
theorem Parsed.places :
    r.Places calls [none, some rootPath] (r.afterAll calls).apply.plan := by
  have hfilter := h.read_filter
  have hsort := h.read_sort
  have hroot : ∀ p, (splitPath p).1 = rootPath ↔ relationPart p ∈ [none, some rootPath] :=
    fun p => splitPath_fst_eq_rootPath_iff
  have hload : ∀ path, some path ∉ [none, some rootPath] → path ≠ rootPath ∧
      ∀ p, (splitPath p).1 = path ↔ relationPart p ∈ [some path] := by
    intro path hpath
    have hne : path ≠ rootPath := by simpa using hpath
    exact ⟨hne, fun p => by rw [splitPath_fst_eq_iff hne, List.mem_singleton]⟩
  have hloadAt : ∀ path, (r.afterAll calls).apply.plan.loadAt path =
      (r.clauses.apply r.base).loadAt path := fun path => by
    rw [h.apply_afterAll]
    rfl
  have hbase : ∀ path, r.base.loadAt path = .empty := fun path => by
    rw [h.base_eq]
    rfl
  constructor
  · rw [h.apply_afterAll, ← FilterClause.filed_eq hfilter hroot]
    change r.base.predicates ++ earlyScopes calls ++ ((r.clauses.filter.filed rootPath).map
      FiledFilter.predicate ++ r.clauses.search.predicates) ++ lateScopes calls = _
    simp only [List.append_assoc]
  · rw [h.apply_afterAll, ← SortClause.filed_eq hsort hroot]
    change (r.clauses.apply r.base).orders = _
    rw [Clauses.apply_orders, h.base_eq]
    rfl
  · intro path hpath
    obtain ⟨hne, hparts⟩ := hload path hpath
    rw [hloadAt, Clauses.loadAt_apply, hbase, ← FilterClause.filed_eq hfilter hparts]
    simp only [FilterClause.loadPredicates, if_neg hne]
    rfl
  · intro path hpath
    obtain ⟨hne, hparts⟩ := hload path hpath
    rw [hloadAt, Clauses.loadAt_apply, hbase, ← SortClause.filed_eq hsort hparts]
    simp only [SortClause.loadOrders, if_neg hne]
    rfl

theorem Parsed.loadAt_rootPath : (r.afterAll calls).apply.plan.loadAt rootPath = .empty := by
  have hload : (r.afterAll calls).apply.plan.loadAt rootPath = r.apply.plan.loadAt rootPath := by
    rw [h.apply_afterAll, h.apply_plan, ← h.base_eq]
    rfl
  have hkeys : rootPath ∉ r.apply.plan.loads.keys := by
    rw [h.loads_keys]
    exact fun hmem => (h.mem_relationPaths.mp hmem).1 rfl
  have hnone : r.apply.plan.loads.get? rootPath = none := Dict.get?_eq_none_iff.mpr hkeys
  rw [hload, Plan.loadAt, hnone]
  rfl

/-- The root rows have those of plain columns only, exactly if no filter and no sort has the path of
the root rows for its relation part. -/
theorem Parsed.places_plain_iff :
    r.Places calls [none] (r.afterAll calls).apply.plan ↔
      (∀ f ∈ r.clauses.filter.filters, relationPart f.path ≠ some rootPath) ∧
      ∀ key ∈ r.clauses.sort.sorts, relationPart key.path ≠ some rootPath := by
  have hfilter := h.read_filter
  have hsort := h.read_sort
  have hplaces := h.places calls
  have hempty := h.loadAt_rootPath calls
  constructor
  · intro hplain
    have hfilters := hplain.loadPredicates rootPath (by simp)
    have hsorts := hplain.loadOrders rootPath (by simp)
    rw [hempty] at hfilters hsorts
    have hnoFilter := (FilterClause.asked_eq_nil_iff hfilter).mp hfilters.symm
    have hnoSort := (SortClause.asked_eq_nil_iff hsort).mp hsorts.symm
    exact ⟨fun f hf he => hnoFilter f hf (by simp [he]),
      fun key hkey he => hnoSort key hkey (by simp [he])⟩
  · rintro ⟨hfilters, hsorts⟩
    have hnoFilter : FilterClause.asked r.context r.params [some rootPath] = [] :=
      (FilterClause.asked_eq_nil_iff hfilter).mpr fun f hf hmem =>
        hfilters f hf (List.mem_singleton.mp hmem)
    have hnoSort : SortClause.asked r.context r.params [some rootPath] = [] :=
      (SortClause.asked_eq_nil_iff hsort).mpr fun key hkey hmem =>
        hsorts key hkey (List.mem_singleton.mp hmem)
    constructor
    · rw [hplaces.rootPredicates, FilterClause.asked_congr hfilter fun f hf => ?_]
      simp [hfilters f hf]
    · rw [hplaces.rootOrders, SortClause.asked_congr hsort fun key hkey => ?_]
      simp [hsorts key hkey]
    · intro path _
      by_cases hpath : path = rootPath
      · rw [hpath, hempty, hnoFilter]
        rfl
      · exact hplaces.loadPredicates path (by simpa using hpath)
    · intro path _
      by_cases hpath : path = rootPath
      · rw [hpath, hempty, hnoSort]
        rfl
      · exact hplaces.loadOrders path (by simpa using hpath)

end

end Request

/-! ### Requests without filters and sorts of related rows -/

def FilterClause.isRelated (ctx : Context) (key : String) : Bool :=
  match pathOfKey ctx key with
  | .ok (some (path, _)) => (splitPath path).1 != rootPath
  | _ => false

def SortClause.rootTokens (tokens : List String) : List String :=
  tokens.filter fun token => (splitPath (keyOf token).path).1 = rootPath

def SortClause.withoutRelated (ctx : Context) (key value : String) : String :=
  if key = ctx.settings.param "sort" then ",".intercalate (rootTokens (listed value)) else value

def Parameters.withoutRelated (ctx : Context) (ps : Parameters) : Parameters :=
  ⟨(ps.pairs.filter fun pair => !FilterClause.isRelated ctx pair.1).map fun pair =>
    (pair.1, SortClause.withoutRelated ctx pair.1 pair.2)⟩

section

variable {ctx : Context} {ps : Parameters}

theorem FilterClause.pathOfKey_param {name : String} (h : name ∈ Settings.reservedNames) :
    pathOfKey ctx (ctx.settings.param name) = .ok none := by
  have hstrip := ctx.settings.stripLead_param name
  have hunrelated : ∀ name ∈ Settings.reservedNames, FilterKey.read name.toList = .unrelated := by
    decide
  have hreserved : ctx.settings.isReserved (ctx.settings.param name) = true := by
    have hname : Settings.reservedNames.contains name = true := by simpa using h
    simp only [Settings.isReserved, hstrip, hname, Bool.true_or]
  unfold pathOfKey
  cases ctx.settings.filterStyle with
  | bracketed => simp only [hstrip, hunrelated name h]
  | flat => simp only [hreserved, if_true]

theorem get?_withoutRelated {name : String} (h : name ∈ Settings.reservedNames) :
    (ps.withoutRelated ctx).get? (ctx.settings.param name) =
      (ps.get? (ctx.settings.param name)).map
        (SortClause.withoutRelated ctx (ctx.settings.param name)) := by
  have hkept : (!FilterClause.isRelated ctx (ctx.settings.param name)) = true := by
    rw [FilterClause.isRelated, FilterClause.pathOfKey_param h]
    rfl
  rw [Parameters.get?, Parameters.withoutRelated, Parameters.lookup_map,
    Parameters.lookup_filter (p := fun key => !FilterClause.isRelated ctx key) hkept]
  rfl

/-- All that is no filter and no sort is kept. -/
theorem agreeOn_withoutRelated (ctx : Context) (ps : Parameters) :
    ctx.AgreeOn (Settings.reservedNames.erase "sort") (ps.withoutRelated ctx) ps := by
  intro name hmem
  have hnames : ∀ name ∈ Settings.reservedNames.erase "sort",
      name ∈ Settings.reservedNames ∧ name ≠ "sort" := by decide
  obtain ⟨hreserved, hne⟩ := hnames name hmem
  have hkey : ctx.settings.param name ≠ ctx.settings.param "sort" := fun he =>
    hne (Settings.param_inj.mp he)
  have hsame : SortClause.withoutRelated ctx (ctx.settings.param name) = id :=
    funext fun value => if_neg hkey
  rw [get?_withoutRelated hreserved, hsame, Option.map_id]
  rfl

theorem SortClause.tokensOf_withoutRelated :
    tokensOf ctx (ps.withoutRelated ctx) = rootTokens (tokensOf ctx ps) := by
  unfold tokensOf
  rw [Context.param?_singleton, Context.param?_singleton, get?_withoutRelated (by decide)]
  cases ps.get? (ctx.settings.param "sort") with
  | none => rfl
  | some value =>
    simp only [Option.map_some, withoutRelated, if_true]
    exact listed_intercalate fun token htoken =>
      listMember_of_mem_listed (List.mem_filter.mp htoken).1

theorem SortClause.read_withoutRelated {clause : SortClause}
    (h : read ctx ps .empty = .accept clause) :
    read ctx (ps.withoutRelated ctx) .empty = .accept ⟨clause.filed rootPath⟩ := by
  obtain ⟨hallowed, hsorts⟩ := read_eq_accept_iff.mp h
  have hscored : scoreSortable ctx (ps.withoutRelated ctx) = scoreSortable ctx ps :=
    (agreeOn_withoutRelated ctx ps).scoreSortable_eq (by decide)
  refine read_eq_accept_iff.mpr ⟨?_, ?_⟩
  · rw [tokensOf_withoutRelated, hscored]
    exact fun token htoken => hallowed token (List.mem_filter.mp htoken).1
  · rw [tokensOf_withoutRelated, filed, hsorts, List.filter_map]
    rfl

theorem FilterClause.reading_withoutRelated (key value : String) :
    reading ctx (key, SortClause.withoutRelated ctx key value) = reading ctx (key, value) := by
  by_cases hkey : key = ctx.settings.param "sort"
  · subst hkey
    have hname : "sort" ∈ Settings.reservedNames := by decide
    simp only [reading, pathOfKey_param hname]
  · rw [SortClause.withoutRelated, if_neg hkey]

theorem FilterClause.filterMap_withoutRelated :
    (ps.withoutRelated ctx).pairs.filterMap (filterOf ctx) =
      (ps.pairs.filterMap (filterOf ctx)).filter fun f => f.relation = rootPath := by
  rw [Parameters.withoutRelated, List.filterMap_map, List.filterMap_filter, List.filter_filterMap]
  refine List.filterMap_congr fun pair _ => ?_
  have hsame : filterOf ctx (pair.1, SortClause.withoutRelated ctx pair.1 pair.2) =
      filterOf ctx pair := by
    rw [filterOf, reading_withoutRelated]
    rfl
  simp only [Function.comp_apply, hsame]
  cases hfilter : filterOf ctx pair with
  | none => simp
  | some f =>
    obtain ⟨⟨suffix, hpath⟩, hrelation⟩ := exists_path_of_filterOf hfilter
    simp only [isRelated, hpath, ← hrelation, Option.filter_some]
    by_cases hroot : f.relation = rootPath
    · simp [hroot]
    · simp [hroot]

theorem FilterClause.read_withoutRelated {clause : FilterClause}
    (h : read ctx ps .empty = .accept clause) :
    read ctx (ps.withoutRelated ctx) .empty = .accept ⟨clause.filed rootPath⟩ := by
  obtain ⟨hreadable, hfilters⟩ := read_eq_accept_iff.mp h
  refine read_eq_accept_iff.mpr ⟨fun pair hpair => ?_, ?_⟩
  · obtain ⟨pair, hmem, rfl⟩ := List.mem_map.mp hpair
    rw [reading_withoutRelated]
    exact hreadable pair (List.mem_filter.mp hmem).1
  · rw [filterMap_withoutRelated, filed, hfilters]

end

namespace Request

def withoutRelated (r : Request) : Request :=
  { r with
    params := r.params.withoutRelated r.context
    clauses := { r.clauses with
      filter := ⟨r.clauses.filter.filed rootPath⟩
      sort := ⟨r.clauses.sort.filed rootPath⟩ } }

section

variable {handler : Handler} {entityName : String} {ps : Parameters} {r : Request}
  (h : r.Parsed handler entityName none ps)

include h

theorem Parsed.read_withoutRelated :
    Clauses.Read r.context (ps.withoutRelated r.context) true r.withoutRelated.clauses := by
  have hagree := agreeOn_withoutRelated r.context ps
  exact {
    select := (hagree.select_eq (by decide) _).trans h.read.select
    filter := fun _ => FilterClause.read_withoutRelated (h.read.filter rfl)
    noFilter := nofun
    sort := SortClause.read_withoutRelated h.read.sort
    expand := (hagree.expand_eq (by decide) _).trans h.read.expand
    search := fun _ => (hagree.search_eq (by decide) _).trans (h.read.search rfl)
    noSearch := nofun
    page := fun _ => (hagree.page_eq (by decide) _).trans (h.read.page rfl)
    noPage := nofun }

/-- The request is accepted without them. -/
theorem Parsed.parse_withoutRelated :
    handler.parse entityName none (ps.withoutRelated r.context) = .ok r.withoutRelated := by
  have hoptions : Handler.optionsOf r.context (ps.withoutRelated r.context) =
      Handler.optionsOf r.context ps :=
    (agreeOn_withoutRelated r.context ps).options_eq (by decide)
  have hcheck : r.withoutRelated.clauses.check = .ok () := by
    have hfilters : r.withoutRelated.clauses.filter.relationPaths = [] := by
      simp [withoutRelated, FilterClause.relationPaths, FilterClause.filed, List.filter_filter]
    have hsorts : r.withoutRelated.clauses.sort.relationPaths = [] := by
      simp [withoutRelated, SortClause.relationPaths, SortClause.filed]
    rw [Clauses.check, hfilters, hsorts]
    rfl
  obtain rfl := h.params_eq
  exact (h.reread h.read_withoutRelated hoptions hcheck).parse_eq

theorem Parsed.plan_withoutRelated (calls : List Call) :
    ∃ loads, (r.withoutRelated.afterAll calls).apply.plan =
      (r.afterAll calls).apply.plan.withLoads loads := by
  have hparsed := parsed_of_parse h.parse_withoutRelated
  have hfilter : r.withoutRelated.clauses.filter.filed rootPath =
      r.clauses.filter.filed rootPath := by
    simp [withoutRelated, FilterClause.filed, List.filter_filter]
  have hsort : r.withoutRelated.clauses.sort.filed rootPath = r.clauses.sort.filed rootPath := by
    simp [withoutRelated, SortClause.filed, List.filter_filter]
  obtain ⟨loads, hloads⟩ := @Clauses.apply_alike r.clauses r.withoutRelated.clauses rfl hfilter
    hsort rfl rfl rfl r.base
  have hpredicates : r.withoutRelated.clauses.predicates = r.clauses.predicates := by
    rw [Clauses.predicates, hfilter]
    rfl
  refine ⟨loads, ?_⟩
  rw [hparsed.apply_afterAll, h.apply_afterAll]
  change (r.withoutRelated.clauses.apply r.base).withPredicates (r.base.predicates ++
    earlyScopes calls ++ r.withoutRelated.clauses.predicates ++ lateScopes calls) = _
  rw [hloads, hpredicates]
  rfl

/-- They make no difference to the selects of root rows and to the counts. -/
theorem Parsed.statements_withoutRelated (calls : List Call) :
    (∀ call, (r.withoutRelated.afterAll calls).apply.rootSelects call =
      (r.afterAll calls).apply.rootSelects call) ∧
    Statement.countOf (r.withoutRelated.afterAll calls).apply.base =
      .countOf (r.afterAll calls).apply.base ∧
    Statement.countOf (r.withoutRelated.afterAll calls).apply.plan =
      .countOf (r.afterAll calls).apply.plan := by
  have hparsed := parsed_of_parse h.parse_withoutRelated
  obtain ⟨loads, hplan⟩ := h.plan_withoutRelated calls
  have hbase : (r.withoutRelated.afterAll calls).apply.base = (r.afterAll calls).apply.base := by
    rw [hparsed.apply_afterAll, h.apply_afterAll]
    rfl
  have hoptions : (r.withoutRelated.afterAll calls).apply.options =
      (r.afterAll calls).apply.options := by
    rw [hparsed.apply_afterAll, h.apply_afterAll]
    rfl
  have hmultiple : (r.withoutRelated.afterAll calls).apply.multiple =
      (r.afterAll calls).apply.multiple := by
    rw [hparsed.apply_afterAll, h.apply_afterAll]
    rfl
  refine ⟨fun call => ?_, by rw [hbase], by rw [hplan]; rfl⟩
  cases call <;> simp only [rootSelects, hplan, hoptions, hmultiple] <;> rfl

end

end Request

/-! ### Statements for related rows -/

/-- The statement selects related rows with the conditions of their keys, some predicates, and some
orders. -/
def Sql.Statement.SelectsRelated (statement : Statement) (ps : List Predicate)
    (orders : List Order) : Prop :=
  ∃ relation target keys select, statement = .select select ∧ select.table = target.table ∧
    select.conditions =
      (tieOf relation target keys).conditions ++ Predicate.conditions target.table ps ∧
    select.orders = ordersOf target.table none orders ∧
    select.limit = none ∧ select.offset = none

theorem selectsRelated_of_asksAt {schema : Schema} {loads : Dict EagerLoad} {root : Entity}
    {path : String} {statement : Statement} (h : AsksAt schema loads root path statement) :
    statement.SelectsRelated ((loads.get? path).getD .empty).predicates
      ((loads.get? path).getD .empty).orders := by
  obtain ⟨keys, -, -, -⟩ := h
  exact ⟨_, _, keys, _, rfl, rfl, rfl, rfl, rfl, rfl⟩

namespace Request

/-- The filters and sorts of a relation path are on its load, those of plain columns on the root
rows, each in the order of the request; and exactly the relation part that is the path of the root
rows is an exception, whose filters and sorts are on the root rows too. Without those of related
rows the request is accepted, with the same selects of root rows and the same counts. A statement
for related rows has the filters and sorts of their path and no others. -/
theorem related_kept_apart {handler : Handler} {entityName : String} {ps : Parameters}
    {r : Request} (h : handler.parse entityName none ps = .ok r) (calls : List Call) :
    r.params = ps ∧ r.base.predicates = [] ∧
    r.Places calls [none, some rootPath] (r.afterAll calls).apply.plan ∧
    (r.Places calls [none] (r.afterAll calls).apply.plan ↔
      (∀ f ∈ r.clauses.filter.filters, relationPart f.path ≠ some rootPath) ∧
      ∀ key ∈ r.clauses.sort.sorts, relationPart key.path ≠ some rootPath) ∧
    (handler.parse entityName none (ps.withoutRelated r.context) = .ok r.withoutRelated ∧
      (∀ call, (r.withoutRelated.afterAll calls).apply.rootSelects call =
        (r.afterAll calls).apply.rootSelects call) ∧
      Statement.countOf (r.withoutRelated.afterAll calls).apply.base =
        .countOf (r.afterAll calls).apply.base ∧
      Statement.countOf (r.withoutRelated.afterAll calls).apply.plan =
        .countOf (r.afterAll calls).apply.plan) ∧
    ∀ call db before, ∃ related counts,
      call.sent db (r.afterAll calls) before =
        before ++ (r.afterAll calls).apply.rootSelects call ++ related ++ counts ∧
      (∀ statement ∈ counts, (r.afterAll calls).apply.Counts statement) ∧
      ∀ statement ∈ related, ∃ path,
        AsksAt handler.schema (r.afterAll calls).apply.plan.loads r.entity path statement ∧
        if path = rootPath then statement.SelectsRelated [] []
        else statement.SelectsRelated (FilterClause.asked r.context ps [some path])
          (SortClause.asked r.context ps [some path]) := by
  have hparsed := parsed_of_parse h
  have hplaces := hparsed.places calls
  refine ⟨hparsed.params_eq, hparsed.base_predicates, hplaces, hparsed.places_plain_iff calls,
    ⟨hparsed.parse_withoutRelated, hparsed.statements_withoutRelated calls⟩,
    fun call db before => ?_⟩
  obtain ⟨related, counts, hsent, hrelated, hcounts⟩ :=
    (r.afterAll calls).sends_call db before call
  refine ⟨related, counts, hsent, hcounts, fun statement hstatement => ?_⟩
  obtain ⟨path, hasks⟩ := hrelated statement hstatement
  have hhandler : (r.afterAll calls).apply.handler = handler := by
    rw [hparsed.apply_afterAll]
    exact hparsed.handler_eq
  have hentity : (r.afterAll calls).apply.entity = r.entity := by
    rw [hparsed.apply_afterAll]
    rfl
  rw [hhandler, hentity] at hasks
  have hselects := selectsRelated_of_asksAt hasks
  refine ⟨path, hasks, ?_⟩
  split
  · next hpath =>
    subst hpath
    have hempty := hparsed.loadAt_rootPath calls
    rw [Plan.loadAt] at hempty
    rw [hempty] at hselects
    exact hselects
  · next hpath =>
    rw [← hparsed.params_eq, ← hplaces.loadPredicates path (by simpa using hpath),
      ← hplaces.loadOrders path (by simpa using hpath)]
    exact hselects

/-! ### Users of posts -/

def userParams : Parameters :=
  .ofPairs [("expand", "user"), ("filter[user.name]", "x"), ("sort", "-id,user.name")]

/-- Posts are not chosen by the names of their users. -/
theorem related_kept_apart_of_user :
    ∃ r, repliedHandler.parse "posts" none userParams = .ok r ∧
      r.Places [] [none] r.apply.plan ∧
      (r.apply.plan.loadAt "user").orders = [⟨"name", false⟩] ∧
      userParams.withoutRelated r.context = .ofPairs [("expand", "user"), ("sort", "-id")] ∧
      ∃ r', repliedHandler.parse "posts" none (userParams.withoutRelated r.context) = .ok r' ∧
        ∀ call, r'.apply.rootSelects call = r.apply.rootSelects call := by
  have hread : (repliedHandler.parse "posts" none userParams).toOption.map (fun r =>
        (r.clauses.filter.filters.map fun f => relationPart f.path,
          r.clauses.sort.sorts.map fun key => relationPart key.path,
          SortClause.asked r.context userParams [some "user"],
          userParams.withoutRelated r.context)) =
      some ([some "user"], [none, some "user"], [⟨"name", false⟩],
        .ofPairs [("expand", "user"), ("sort", "-id")]) := by decide +kernel
  obtain ⟨r, hparse, hr⟩ := exists_ok_of_map_toOption hread
  simp only [Prod.mk.injEq] at hr
  obtain ⟨hfilters, hsorts, horders, hremoved⟩ := hr
  obtain ⟨hparams, -, hplaces, hplain, ⟨hwithout, hroots, -⟩, -⟩ := related_kept_apart hparse []
  refine ⟨r, hparse, hplain.mpr ⟨fun f hf he => ?_, fun key hkey he => ?_⟩, ?_, hremoved,
    r.withoutRelated, hwithout, hroots⟩
  · have hmem := List.mem_map_of_mem (f := fun f : FiledFilter => relationPart f.path) hf
    rw [hfilters, he] at hmem
    exact absurd hmem (by decide)
  · have hmem := List.mem_map_of_mem (f := fun key : SortKey => relationPart key.path) hkey
    rw [hsorts, he] at hmem
    exact absurd hmem (by decide)
  · have hloaded := hplaces.loadOrders "user" (by decide)
    rw [hparams, horders] at hloaded
    exact hloaded

def replyParams : Parameters := .ofPairs [("expand", "..user"), ("filter[..name]", "x")]

/-- Posts are chosen by a filter on the replies to their replies. -/
theorem replies_filter_posts :
    ∃ r, repliedHandler.parse "posts" none replyParams = .ok r ∧
      pathTo ["", ""] = some "." ∧
      FilterClause.asked r.context r.params [some "."] = [.compare "name" .eq "x"] ∧
      (r.apply.plan.loadAt ".").predicates = [] ∧
      FilterClause.asked r.context r.params [none] = [] ∧
      r.apply.plan.predicates = [.compare "name" .eq "x"] ∧
      ¬ r.Places [] [none] r.apply.plan := by
  have hread : (repliedHandler.parse "posts" none replyParams).toOption.map (fun r =>
        (FilterClause.asked r.context r.params [some "."], (r.apply.plan.loadAt ".").predicates,
          FilterClause.asked r.context r.params [none], r.apply.plan.predicates)) =
      some ([.compare "name" .eq "x"], [], [], [.compare "name" .eq "x"]) := by cbv
  obtain ⟨r, hparse, hr⟩ := exists_ok_of_map_toOption hread
  simp only [Prod.mk.injEq] at hr
  obtain ⟨hasked, hloaded, hplain, hroot⟩ := hr
  refine ⟨r, hparse, rfl, hasked, hloaded, hplain, hroot, fun hplaces => ?_⟩
  have hpredicates := hplaces.loadPredicates "." (by decide)
  rw [hloaded, hasked] at hpredicates
  cases hpredicates

end Request

end RestQuery
