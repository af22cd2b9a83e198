import RestQuery.Proofs.Dict
import RestQuery.Request

/-!
# Where a request puts its clauses

Each clause changes its own part of a plan and leaves the others alone. Filters and sorts are filed
by relation path: those of the root path go to the plan itself, the others to the load at their
path. An expansion sets the columns of the loads at its paths and extends a projection that is
restricted. So every part of the final plan is a list of contributions in a fixed order.
-/

namespace RestQuery

/-- A projection with more columns, less those that it has under some name. -/
def extendSelect (table : String) (select columns : List String) : List String :=
  columns.foldl (fun select column =>
    if select.any fun present => qualify table present == qualify table column then select
    else select ++ [column]) select

theorem extendSelect_cons (table : String) (select : List String) (column : String)
    (columns : List String) :
    extendSelect table select (column :: columns) =
      extendSelect table
        (if select.any fun present => qualify table present == qualify table column then select
          else select ++ [column]) columns := rfl

/-- The load at a path; one that is missing asks for every row and column. -/
def Plan.loadAt (plan : Plan) (path : String) : EagerLoad := (plan.loads.get? path).getD .empty

def Plan.withPredicates (plan : Plan) (ps : List Predicate) : Plan := { plan with predicates := ps }

def Plan.withLoads (plan : Plan) (loads : Dict EagerLoad) : Plan := { plan with loads := loads }

namespace Plan

variable (plan : Plan)

@[simp] theorem loadAt_updateLoad_self (path : String) (f : EagerLoad → EagerLoad) :
    (plan.updateLoad path f).loadAt path = f (plan.loadAt path) := by
  simp [loadAt, updateLoad]

@[simp] theorem loadAt_updateLoad_of_ne {path other : String} (f : EagerLoad → EagerLoad)
    (h : other ≠ path) : (plan.updateLoad path f).loadAt other = plan.loadAt other := by
  simp [loadAt, updateLoad, h]

theorem addColumns_eq (columns : List String) :
    plan.addColumns columns =
      { plan with select := extendSelect plan.table plan.select columns } := by
  induction columns generalizing plan with
  | nil => rfl
  | cons column columns ih =>
    change (plan.addColumn column).addColumns columns = _
    rw [ih, extendSelect_cons]
    unfold addColumn qualify
    split <;> rfl

section Filing

variable {ι : Type} {relation : ι → String} {place : Plan → ι → Plan}
  {put : EagerLoad → List ι → EagerLoad}

/-- Items are placed in the plan itself, without a change of its loads, or put into the load at
their relation path. -/
structure Files (relation : ι → String) (place : Plan → ι → Plan)
    (put : EagerLoad → List ι → EagerLoad) : Prop where
  root : ∀ {plan item}, relation item = rootPath → (place plan item).loads = plan.loads
  load : ∀ {plan item}, relation item ≠ rootPath →
    place plan item = plan.updateLoad (relation item) (put · [item])

/-- Items that are placed one after another leave at a path what those with this path put there. -/
theorem Files.loadAt_foldl (h : Files relation place put) (hnil : ∀ load, put load [] = load)
    (hcons : ∀ load item items, put (put load [item]) items = put load (item :: items))
    (items : List ι) (path : String) :
    (items.foldl place plan).loadAt path =
      put (plan.loadAt path)
        (if path = rootPath then [] else items.filter (relation · = path)) := by
  induction items generalizing plan with
  | nil => simp [hnil]
  | cons item items ih =>
    rw [List.foldl_cons, ih, List.filter_cons]
    by_cases hitem : relation item = rootPath
    · have hsame : (place plan item).loadAt path = plan.loadAt path := by
        rw [loadAt, h.root hitem, loadAt]
      rw [hsame]
      by_cases hpath : path = rootPath
      · rw [if_pos hpath, if_pos hpath]
      · have hne : ¬ relation item = path := fun e => hpath (e.symm.trans hitem)
        simp [hpath, hne]
    · rw [h.load hitem]
      by_cases hpath : relation item = path
      · subst hpath
        rw [loadAt_updateLoad_self, if_neg hitem, if_neg hitem, hcons]
        simp
      · have hne : path ≠ relation item := fun e => hpath e.symm
        simp [hpath, hne]

theorem Files.mem_keys_foldl (h : Files relation place put) {items : List ι} {path : String} :
    path ∈ (items.foldl place plan).loads.keys ↔
      path ∈ plan.loads.keys ∨ ∃ item ∈ items, relation item ≠ rootPath ∧ relation item = path := by
  induction items generalizing plan with
  | nil => simp
  | cons item items ih =>
    rw [List.foldl_cons, ih]
    simp only [List.mem_cons, exists_eq_or_imp]
    rw [← or_assoc]
    refine or_congr ?_ Iff.rfl
    by_cases hitem : relation item = rootPath
    · simp [h.root hitem, hitem]
    · rw [h.load hitem, updateLoad, Dict.mem_keys_update, or_comm]
      simp [hitem, eq_comm]

theorem Files.ordered_foldl (h : Files relation place put) {plan : Plan}
    (hordered : plan.loads.Ordered) (items : List ι) :
    (items.foldl place plan).loads.Ordered := by
  induction items generalizing plan with
  | nil => exact hordered
  | cons item items ih =>
    refine ih ?_
    by_cases hitem : relation item = rootPath
    · rwa [h.root hitem]
    · rw [h.load hitem]
      exact Dict.ordered_insert hordered _ _

end Filing

end Plan

theorem SelectClause.apply_withPredicates (clause : SelectClause) (plan : Plan)
    (ps : List Predicate) :
    clause.apply (plan.withPredicates ps) = (clause.apply plan).withPredicates ps := by
  rw [SelectClause.apply, Plan.addColumns_eq, SelectClause.apply, Plan.addColumns_eq]
  rfl

namespace FilterClause

def filed (clause : FilterClause) (relation : String) : List FiledFilter :=
  clause.filters.filter (·.relation = relation)

/-- The predicates of the filters that go to the load at a path. -/
def loadPredicates (clause : FilterClause) (path : String) : List Predicate :=
  if path = rootPath then [] else (clause.filed path).map FiledFilter.predicate

theorem apply_cons (filter : FiledFilter) (filters : List FiledFilter) (plan : Plan) :
    apply ⟨filter :: filters⟩ plan = apply ⟨filters⟩ (applyFilter plan filter) := rfl

theorem filed_cons (filter : FiledFilter) (filters : List FiledFilter) (relation : String) :
    filed ⟨filter :: filters⟩ relation =
      if filter.relation = relation then filter :: filed ⟨filters⟩ relation
      else filed ⟨filters⟩ relation := by
  simp [filed, List.filter_cons]

theorem apply_eq (clause : FilterClause) (plan : Plan) :
    clause.apply plan = { plan with
      predicates := plan.predicates ++ (clause.filed rootPath).map FiledFilter.predicate
      loads := (clause.apply plan).loads } := by
  obtain ⟨filters⟩ := clause
  induction filters generalizing plan with
  | nil => simp [apply, filed]
  | cons filter filters ih =>
    rw [apply_cons, ih, filed_cons]
    unfold applyFilter
    split
    · simp [Plan.addPredicate]
    · rfl

theorem apply_withPredicates (clause : FilterClause) (plan : Plan) (ps : List Predicate) :
    clause.apply (plan.withPredicates ps) = (clause.apply plan).withPredicates
      (ps ++ (clause.filed rootPath).map FiledFilter.predicate) := by
  obtain ⟨filters⟩ := clause
  induction filters generalizing plan ps with
  | nil => simp [apply, filed]
  | cons filter filters ih =>
    rw [apply_cons, apply_cons, filed_cons]
    by_cases hroot : filter.relation = rootPath
    · have hplaced : applyFilter (plan.withPredicates ps) filter =
          (applyFilter plan filter).withPredicates (ps ++ [filter.predicate]) := by
        simp only [applyFilter, if_pos hroot]
        rfl
      rw [hplaced, ih, if_pos hroot, List.append_assoc]
      rfl
    · have hplaced : applyFilter (plan.withPredicates ps) filter =
          (applyFilter plan filter).withPredicates ps := by
        simp only [applyFilter, if_neg hroot]
        rfl
      rw [hplaced, ih, if_neg hroot]

theorem files_applyFilter : Plan.Files FiledFilter.relation applyFilter fun load filters =>
    { load with predicates := load.predicates ++ filters.map FiledFilter.predicate } where
  root h := by simp [applyFilter, h, Plan.addPredicate]
  load h := by simp [applyFilter, h]

theorem loadAt_apply (clause : FilterClause) (plan : Plan) (path : String) :
    (clause.apply plan).loadAt path = { plan.loadAt path with
      predicates := (plan.loadAt path).predicates ++ clause.loadPredicates path } := by
  have hfiled := files_applyFilter.loadAt_foldl plan (by simp) (by simp) clause.filters path
  rw [loadPredicates, filed]
  change (clause.filters.foldl applyFilter plan).loadAt path = _
  rw [hfiled]
  split <;> simp

theorem mem_keys_apply (clause : FilterClause) (plan : Plan) {path : String} :
    path ∈ (clause.apply plan).loads.keys ↔
      path ∈ plan.loads.keys ∨ path ∈ clause.relationPaths.map Prod.fst := by
  change path ∈ (clause.filters.foldl applyFilter plan).loads.keys ↔ _
  rw [files_applyFilter.mem_keys_foldl]
  simp [relationPaths, and_assoc]

end FilterClause

/-- The order that a sort key puts on the rows of its level. -/
def SortKey.order (key : SortKey) : Order := ⟨(splitPath key.path).2, key.descending⟩

namespace SortClause

def filed (clause : SortClause) (relation : String) : List SortKey :=
  clause.sorts.filter fun key => (splitPath key.path).1 = relation

/-- The orders of the sort keys that go to the load at a path. -/
def loadOrders (clause : SortClause) (path : String) : List Order :=
  if path = rootPath then [] else (clause.filed path).map SortKey.order

theorem apply_cons (key : SortKey) (sorts : List SortKey) (plan : Plan) :
    apply ⟨key :: sorts⟩ plan = apply ⟨sorts⟩ (applyKey plan key) := rfl

theorem filed_cons (key : SortKey) (sorts : List SortKey) (relation : String) :
    filed ⟨key :: sorts⟩ relation =
      if (splitPath key.path).1 = relation then key :: filed ⟨sorts⟩ relation
      else filed ⟨sorts⟩ relation := by
  simp [filed, List.filter_cons]

theorem apply_eq (clause : SortClause) (plan : Plan) :
    clause.apply plan = { plan with
      orders := plan.orders ++ (clause.filed rootPath).map SortKey.order
      loads := (clause.apply plan).loads } := by
  obtain ⟨sorts⟩ := clause
  induction sorts generalizing plan with
  | nil => simp [apply, filed]
  | cons key sorts ih =>
    rw [apply_cons, ih, filed_cons]
    unfold applyKey
    dsimp only
    split
    · simp [Plan.addOrder, SortKey.order]
    · rfl

theorem apply_withPredicates (clause : SortClause) (plan : Plan) (ps : List Predicate) :
    clause.apply (plan.withPredicates ps) = (clause.apply plan).withPredicates ps := by
  obtain ⟨sorts⟩ := clause
  induction sorts generalizing plan with
  | nil => rfl
  | cons key sorts ih =>
    have hplaced : applyKey (plan.withPredicates ps) key =
        (applyKey plan key).withPredicates ps := by
      by_cases hroot : (splitPath key.path).1 = rootPath
      · simp only [applyKey, if_pos hroot]
        rfl
      · simp only [applyKey, if_neg hroot]
        rfl
    rw [apply_cons, apply_cons, hplaced, ih]

theorem files_applyKey :
    Plan.Files (fun key : SortKey => (splitPath key.path).1) applyKey fun load keys =>
      { load with orders := load.orders ++ keys.map SortKey.order } where
  root h := by simp [applyKey, h, Plan.addOrder]
  load h := by simp [applyKey, h, SortKey.order]

theorem loadAt_apply (clause : SortClause) (plan : Plan) (path : String) :
    (clause.apply plan).loadAt path = { plan.loadAt path with
      orders := (plan.loadAt path).orders ++ clause.loadOrders path } := by
  have hfiled := files_applyKey.loadAt_foldl plan (by simp) (by simp) clause.sorts path
  rw [loadOrders, filed]
  change (clause.sorts.foldl applyKey plan).loadAt path = _
  rw [hfiled]
  split <;> simp

theorem mem_keys_apply (clause : SortClause) (plan : Plan) {path : String} :
    path ∈ (clause.apply plan).loads.keys ↔
      path ∈ plan.loads.keys ∨ path ∈ clause.relationPaths.map Prod.fst := by
  change path ∈ (clause.sorts.foldl applyKey plan).loads.keys ↔ _
  rw [files_applyKey.mem_keys_foldl]
  simp [relationPaths]

end SortClause

namespace ExpandClause

/-- Sets the columns of the loads at some paths. -/
def setColumns (e : Expansion) (paths : List String) (plan : Plan) : Plan :=
  paths.foldl (fun plan path =>
    plan.updateLoad path fun load => { load with columns := e.projection path }) plan

theorem setColumns_eq (e : Expansion) (paths : List String) (plan : Plan) :
    setColumns e paths plan = { plan with loads := (setColumns e paths plan).loads } := by
  induction paths generalizing plan with
  | nil => rfl
  | cons path paths ih =>
    change setColumns e paths (plan.updateLoad path _) = _
    rw [ih]
    rfl

theorem loadAt_setColumns (e : Expansion) (paths : List String) (plan : Plan) (path : String) :
    (setColumns e paths plan).loadAt path =
      if path ∈ paths then { plan.loadAt path with columns := e.projection path }
      else plan.loadAt path := by
  induction paths generalizing plan with
  | nil => rfl
  | cons first paths ih =>
    change (setColumns e paths (plan.updateLoad first _)).loadAt path = _
    rw [ih]
    by_cases hp : path = first
    · subst hp
      simp
    · simp [hp]

theorem mem_keys_setColumns {e : Expansion} {paths : List String} {plan : Plan} {path : String} :
    path ∈ (setColumns e paths plan).loads.keys ↔ path ∈ plan.loads.keys ∨ path ∈ paths := by
  induction paths generalizing plan with
  | nil => simp [setColumns]
  | cons first paths ih =>
    change path ∈ (setColumns e paths (plan.updateLoad first _)).loads.keys ↔ _
    rw [ih, Plan.updateLoad, Dict.mem_keys_update, List.mem_cons]
    tauto

theorem ordered_setColumns {e : Expansion} {plan : Plan} (h : plan.loads.Ordered)
    (paths : List String) : (setColumns e paths plan).loads.Ordered := by
  induction paths generalizing plan with
  | nil => exact h
  | cons first paths ih => exact ih (Dict.ordered_insert h _ _)

theorem apply_eq (clause : ExpandClause) (plan : Plan) :
    clause.apply plan = { plan with
      select := if plan.select = [] then []
        else extendSelect plan.table plan.select (clause.expansion.columns rootPath)
      loads := (setColumns clause.expansion clause.expansion.relationPaths plan).loads } := by
  change (if (setColumns clause.expansion clause.expansion.relationPaths plan).select = [] then
      setColumns clause.expansion clause.expansion.relationPaths plan
    else (setColumns clause.expansion clause.expansion.relationPaths plan).addColumns
      (clause.expansion.columns rootPath)) = _
  rw [setColumns_eq]
  by_cases hs : plan.select = []
  · simp [hs]
  · rw [if_neg hs, if_neg hs, Plan.addColumns_eq]

theorem setColumns_withPredicates (e : Expansion) (paths : List String) (plan : Plan)
    (ps : List Predicate) :
    setColumns e paths (plan.withPredicates ps) = (setColumns e paths plan).withPredicates ps := by
  induction paths generalizing plan with
  | nil => rfl
  | cons path paths ih =>
    exact ih (plan.updateLoad path fun load => { load with columns := e.projection path })

theorem apply_withPredicates (clause : ExpandClause) (plan : Plan) (ps : List Predicate) :
    clause.apply (plan.withPredicates ps) = (clause.apply plan).withPredicates ps := by
  rw [apply_eq, apply_eq, setColumns_withPredicates]
  rfl

theorem loadAt_apply (clause : ExpandClause) (plan : Plan) (path : String) :
    (clause.apply plan).loadAt path =
      if path ∈ clause.expansion.relationPaths then
        { plan.loadAt path with columns := clause.expansion.projection path }
      else plan.loadAt path := by
  rw [← loadAt_setColumns, apply_eq]
  rfl

end ExpandClause

namespace SearchClause

/-- The predicate of a search. -/
def predicates (clause : SearchClause) : List Predicate :=
  match clause.search with
  | none => []
  | some s =>
    if Text.trim s.term = "" then [.never]
    else
      match s.driver with
      | .native => [.search s.columns s.term]
      | .like => [s.keywords]

theorem apply_eq (clause : SearchClause) (plan : Plan) :
    clause.apply plan = { plan with
      predicates := plan.predicates ++ clause.predicates
      score := (clause.apply plan).score } := by
  unfold apply predicates
  cases clause.search with
  | none => simp
  | some s =>
    dsimp only
    unfold SearchTerm.apply
    split
    · rfl
    · cases s.driver with
      | native =>
        dsimp only [SearchTerm.applyNative]
        split <;> rfl
      | like => rfl

/-- The score depends on the projection and the orders alone. -/
theorem score_apply_congr (clause : SearchClause) {plan plan' : Plan}
    (hselect : plan.select = plan'.select) (horders : plan.orders = plan'.orders)
    (hscore : plan.score = plan'.score) :
    (clause.apply plan).score = (clause.apply plan').score := by
  unfold apply
  cases clause.search with
  | none => exact hscore
  | some s =>
    dsimp only
    unfold SearchTerm.apply
    split
    · exact hscore
    · cases s.driver with
      | native =>
        have hwanted : ∀ p, s.wantsScore (plan.addPredicate p) =
            s.wantsScore (plan'.addPredicate p) := fun p => by
          simp only [SearchTerm.wantsScore, Plan.addPredicate, hselect, horders]
        dsimp only [SearchTerm.applyNative]
        rw [hwanted]
        split
        · rfl
        · exact hscore
      | like => exact hscore

theorem apply_withPredicates (clause : SearchClause) (plan : Plan) (ps : List Predicate) :
    clause.apply (plan.withPredicates ps) =
      (clause.apply plan).withPredicates (ps ++ clause.predicates) := by
  have hscore : (clause.apply (plan.withPredicates ps)).score = (clause.apply plan).score :=
    clause.score_apply_congr rfl rfl rfl
  rw [apply_eq, hscore, apply_eq clause plan]
  rfl

theorem apply_withLoads (clause : SearchClause) (plan : Plan) (loads : Dict EagerLoad) :
    clause.apply (plan.withLoads loads) = (clause.apply plan).withLoads loads := by
  have hscore : (clause.apply (plan.withLoads loads)).score = (clause.apply plan).score :=
    clause.score_apply_congr rfl rfl rfl
  rw [apply_eq, hscore, apply_eq clause plan]
  rfl

end SearchClause

theorem PageClause.apply_withLoads (clause : PageClause) (plan : Plan) (loads : Dict EagerLoad) :
    clause.apply (plan.withLoads loads) = (clause.apply plan).withLoads loads := by
  unfold PageClause.apply
  cases clause.limit <;> rfl

theorem PageClause.apply_withPredicates (clause : PageClause) (plan : Plan) (ps : List Predicate) :
    clause.apply (plan.withPredicates ps) = (clause.apply plan).withPredicates ps := by
  unfold PageClause.apply
  cases clause.limit <;> rfl

theorem PageClause.apply_eq (clause : PageClause) (plan : Plan) :
    clause.apply plan = { plan with
      limit := (clause.apply plan).limit, offset := (clause.apply plan).offset } := by
  unfold PageClause.apply
  cases clause.limit <;> rfl

/-! ### The final plan -/

namespace Clauses

variable (clauses : Clauses) (plan : Plan)

/-- The final plan by its parts. -/
theorem exists_apply_eq : ∃ loads score limit offset, clauses.apply plan = { plan with
    select := if extendSelect plan.table plan.select clauses.select.columns = [] then []
      else extendSelect plan.table
        (extendSelect plan.table plan.select clauses.select.columns)
        (clauses.expand.expansion.columns rootPath)
    predicates := plan.predicates ++
      (clauses.filter.filed rootPath).map FiledFilter.predicate ++ clauses.search.predicates
    orders := plan.orders ++ (clauses.sort.filed rootPath).map SortKey.order
    loads := loads, score := score, limit := limit, offset := offset } := by
  rw [Clauses.apply, SelectClause.apply, Plan.addColumns_eq, FilterClause.apply_eq]
  generalize (clauses.filter.apply _).loads = filterLoads
  rw [SortClause.apply_eq]
  generalize (clauses.sort.apply _).loads = sortLoads
  rw [ExpandClause.apply_eq, SearchClause.apply_eq]
  generalize (clauses.search.apply _).score = score
  rw [PageClause.apply_eq]
  exact ⟨_, _, _, _, rfl⟩

theorem apply_table : (clauses.apply plan).table = plan.table := by
  obtain ⟨loads, score, limit, offset, hplan⟩ := clauses.exists_apply_eq plan
  rw [hplan]

theorem apply_select :
    (clauses.apply plan).select =
      if extendSelect plan.table plan.select clauses.select.columns = [] then []
      else extendSelect plan.table
        (extendSelect plan.table plan.select clauses.select.columns)
        (clauses.expand.expansion.columns rootPath) := by
  obtain ⟨loads, score, limit, offset, hplan⟩ := clauses.exists_apply_eq plan
  rw [hplan]

theorem apply_predicates :
    (clauses.apply plan).predicates = plan.predicates ++
      (clauses.filter.filed rootPath).map FiledFilter.predicate ++ clauses.search.predicates := by
  obtain ⟨loads, score, limit, offset, hplan⟩ := clauses.exists_apply_eq plan
  rw [hplan]

/-- The predicates that the clauses put on the root rows. -/
def predicates : List Predicate :=
  (clauses.filter.filed rootPath).map FiledFilter.predicate ++ clauses.search.predicates

/-- The predicates of the clauses come behind those of the plan, on which no other part of the final
plan depends. -/
theorem apply_withPredicates (ps : List Predicate) :
    clauses.apply (plan.withPredicates ps) =
      (clauses.apply plan).withPredicates (ps ++ clauses.predicates) := by
  rw [Clauses.apply, SelectClause.apply_withPredicates, FilterClause.apply_withPredicates,
    SortClause.apply_withPredicates, ExpandClause.apply_withPredicates,
    SearchClause.apply_withPredicates, PageClause.apply_withPredicates, List.append_assoc]
  rfl

theorem apply_orders :
    (clauses.apply plan).orders =
      plan.orders ++ (clauses.sort.filed rootPath).map SortKey.order := by
  obtain ⟨loads, score, limit, offset, hplan⟩ := clauses.exists_apply_eq plan
  rw [hplan]

/-- The loads make no difference to the rest of a plan, nor do the filters and sorts that are filed
under relation paths. -/
theorem apply_alike {clauses clauses' : Clauses} (hselect : clauses'.select = clauses.select)
    (hfilter : clauses'.filter.filed rootPath = clauses.filter.filed rootPath)
    (hsort : clauses'.sort.filed rootPath = clauses.sort.filed rootPath)
    (hexpand : clauses'.expand = clauses.expand) (hsearch : clauses'.search = clauses.search)
    (hpage : clauses'.page = clauses.page) (plan : Plan) :
    ∃ loads, clauses'.apply plan = (clauses.apply plan).withLoads loads := by
  have hfiltered : ∀ p, ∃ loads,
      clauses'.filter.apply p = (clauses.filter.apply p).withLoads loads := fun p =>
    ⟨_, by rw [FilterClause.apply_eq, hfilter, FilterClause.apply_eq clauses.filter]; rfl⟩
  have hsorted : ∀ p loads, ∃ loads',
      clauses'.sort.apply (p.withLoads loads) = (clauses.sort.apply p).withLoads loads' :=
    fun p loads => ⟨_, by rw [SortClause.apply_eq, hsort, SortClause.apply_eq clauses.sort]; rfl⟩
  have hexpanded : ∀ p loads, ∃ loads',
      clauses.expand.apply (p.withLoads loads) = (clauses.expand.apply p).withLoads loads' :=
    fun p loads => ⟨_, by rw [ExpandClause.apply_eq, ExpandClause.apply_eq clauses.expand p]; rfl⟩
  obtain ⟨filterLoads, hfilterLoads⟩ := hfiltered (clauses.select.apply plan)
  obtain ⟨sortLoads, hsortLoads⟩ :=
    hsorted (clauses.filter.apply (clauses.select.apply plan)) filterLoads
  obtain ⟨loads, hloads⟩ := hexpanded
    (clauses.sort.apply (clauses.filter.apply (clauses.select.apply plan))) sortLoads
  refine ⟨loads, ?_⟩
  rw [Clauses.apply, hselect, hexpand, hsearch, hpage, hfilterLoads, hsortLoads, hloads,
    SearchClause.apply_withLoads, PageClause.apply_withLoads]
  rfl

/-- The loads come from filters, sorts and expansions. -/
theorem apply_loads :
    (clauses.apply plan).loads =
      (ExpandClause.setColumns clauses.expand.expansion clauses.expand.expansion.relationPaths
        (clauses.sort.apply (clauses.filter.apply (clauses.select.apply plan)))).loads := by
  rw [Clauses.apply, PageClause.apply_eq, SearchClause.apply_eq, ExpandClause.apply_eq]

theorem mem_keys_apply {path : String} :
    path ∈ (clauses.apply plan).loads.keys ↔
      path ∈ plan.loads.keys ∨ path ∈ clauses.filter.relationPaths.map Prod.fst ∨
        path ∈ clauses.sort.relationPaths.map Prod.fst ∨
        path ∈ clauses.expand.expansion.relationPaths := by
  rw [apply_loads, ExpandClause.mem_keys_setColumns, SortClause.mem_keys_apply,
    FilterClause.mem_keys_apply, SelectClause.apply, Plan.addColumns_eq]
  simp only [or_assoc]

theorem ordered_apply (h : plan.loads.Ordered) : (clauses.apply plan).loads.Ordered := by
  rw [apply_loads]
  refine ExpandClause.ordered_setColumns ?_ _
  refine SortClause.files_applyKey.ordered_foldl ?_ _
  refine FilterClause.files_applyFilter.ordered_foldl ?_ _
  rwa [SelectClause.apply, Plan.addColumns_eq]

theorem loadAt_apply (path : String) :
    (clauses.apply plan).loadAt path =
      { columns := if path ∈ clauses.expand.expansion.relationPaths
          then clauses.expand.expansion.projection path else (plan.loadAt path).columns
        predicates := (plan.loadAt path).predicates ++ clauses.filter.loadPredicates path
        orders := (plan.loadAt path).orders ++ clauses.sort.loadOrders path } := by
  have hpage : ∀ p : Plan, (clauses.page.apply p).loadAt path = p.loadAt path := fun p => by
    rw [PageClause.apply_eq]
    rfl
  have hsearch : ∀ p : Plan, (clauses.search.apply p).loadAt path = p.loadAt path := fun p => by
    rw [SearchClause.apply_eq]
    rfl
  have hselect : (clauses.select.apply plan).loadAt path = plan.loadAt path := by
    rw [SelectClause.apply, Plan.addColumns_eq]
    rfl
  rw [Clauses.apply, hpage, hsearch, ExpandClause.loadAt_apply, SortClause.loadAt_apply,
    FilterClause.loadAt_apply, hselect]
  split <;> rfl

end Clauses

end RestQuery
