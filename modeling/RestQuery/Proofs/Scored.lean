import RestQuery.Proofs.AllowList

/-!
# Orders by the score

A sort by the score column is accepted if the parameters ask for a search that yields a score. A
request for a collection runs this search, and then the plan projects the score under the name that
it sorts by. A request for a single row is read by the same rule but runs no search; and the score
column behind the path of the root rows is checked as any other path. In these cases the statement
sorts by a column of the table that has the name of the score.
-/

namespace RestQuery

open Text Sql

/-- Where a plan sorts by a name, it sorts by the score, which it projects under this name; by any
other name it sorts by a column. -/
structure Plan.SortsByScore (plan : Plan) (label : String) : Prop where
  projected : ∃ score, plan.score = some score ∧ score.label = label ∧
    scoreItem plan.table score ∈ (selectOf plan).items
  orders_eq : (selectOf plan).orders = plan.orders.map fun order =>
    (if order.column = label then .label label else .column (.resolve plan.table order.column),
      order.descending)

theorem scoreItem_mem_projection (table : String) (columns : List String) (score : Score) :
    scoreItem table score ∈ projection table columns (some score) := by
  unfold projection
  by_cases h : columns.contains score.label = true
  · have hmem : score.label ∈ columns := by simpa using h
    have hne : columns.isEmpty = false := by
      cases columns with
      | nil => cases hmem
      | cons _ _ => rfl
    simp only [h, hne, if_true, Bool.false_eq_true, if_false]
    exact List.mem_map.mpr ⟨score.label, hmem, if_pos rfl⟩
  · simp only [h, Bool.false_eq_true, if_false]
    exact List.mem_append_right _ (List.mem_singleton_self _)

theorem Plan.sortsByScore_of_score {plan : Plan} {score : Score} (h : plan.score = some score) :
    plan.SortsByScore score.label := by
  constructor
  · refine ⟨score, h, rfl, ?_⟩
    change _ ∈ projection plan.table plan.select plan.score
    rw [h]
    exact scoreItem_mem_projection plan.table plan.select score
  · change ordersOf plan.table plan.score plan.orders = _
    rw [h]
    refine List.map_congr_left fun order _ => ?_
    simp only [orderTarget, eq_comm]

/-! ### The rule for the score column -/

namespace SortClause

variable {ctx : Context} {ps : Parameters} {clause next : SortClause}

theorem scoreSortable_iff : scoreSortable ctx ps = true ↔
    ctx.settings.searchDriver = .native ∧ ctx.allow.searchable ≠ [] ∧
      ∃ term, ctx.param? ps ["search", "q"] = some term ∧ Text.trim term ≠ "" := by
  unfold scoreSortable
  cases ctx.param? ps ["search", "q"] <;> simp [and_assoc]

theorem take_scored {scored : Bool} {token : String}
    (h : ∀ key ∈ clause.sorts, key.path = ctx.settings.scoreColumn → scored = true)
    (htake : take ctx scored clause token = .accept next) :
    ∀ key ∈ next.sorts, key.path = ctx.settings.scoreColumn → scored = true := by
  unfold take at htake
  dsimp only at htake
  generalize hallowed : (if (keyOf token).path = ctx.settings.scoreColumn then scored
    else Glob.isAllowed (keyOf token).path ctx.allow.sortable) = allowed at htake
  split at htake
  · next haccepted =>
    obtain rfl := Gathered.accept_inj.mp htake
    refine List.forall_mem_append.mpr ⟨h, List.forall_mem_singleton.mpr fun hscore => ?_⟩
    rw [if_pos hscore] at hallowed
    exact hallowed.trans haccepted.2
  · simp at htake

theorem scored_of_read (h : read ctx ps .empty = .accept clause) :
    ∀ key ∈ clause.sorts, key.path = ctx.settings.scoreColumn → scoreSortable ctx ps = true := by
  unfold read at h
  split at h
  · exact gather_invariant (P := fun clause => ∀ key ∈ clause.sorts,
        key.path = ctx.settings.scoreColumn → scoreSortable ctx ps = true)
      (fun _ _ _ => take_scored) (by simp [empty]) h
  · obtain rfl := Gathered.accept_inj.mp h
    simp [empty]

end SortClause

namespace SearchClause

variable {ctx : Context} {ps : Parameters} {clause : SearchClause}

theorem score_apply_of_scoreSortable (h : read ctx ps .empty = .accept clause)
    (hscore : SortClause.scoreSortable ctx ps = true) {plan : Plan}
    (horder : ∃ order ∈ plan.orders, order.column = ctx.settings.scoreColumn) :
    ∃ score, (clause.apply plan).score = some score ∧ score.label = ctx.settings.scoreColumn := by
  obtain ⟨hdriver, hsearchable, term, hterm, htrim⟩ := SortClause.scoreSortable_iff.mp hscore
  rw [read, hterm] at h
  simp only [hsearchable, if_false, Gathered.accept_inj, hdriver] at h
  subst h
  have hwanted : ∀ s : SearchTerm, s.scoreColumn = ctx.settings.scoreColumn →
      ∀ p, s.wantsScore (plan.addPredicate p) = true := by
    intro s hs p
    obtain ⟨order, hmem, hcolumn⟩ := horder
    have hany : (plan.orders.any fun order => order.column == s.scoreColumn) = true :=
      List.any_eq_true.mpr ⟨order, hmem, by simp [hcolumn, hs]⟩
    simp [SearchTerm.wantsScore, Plan.addPredicate, hany]
  simp only [apply, SearchTerm.apply, htrim, if_false, SearchTerm.applyNative]
  rw [if_pos (hwanted _ rfl _)]
  exact ⟨_, rfl, rfl⟩

theorem score_apply_of_not_scoreSortable (h : read ctx ps .empty = .accept clause)
    (hscore : ¬ SortClause.scoreSortable ctx ps = true) (plan : Plan) :
    (clause.apply plan).score = plan.score := by
  unfold read at h
  split at h
  · next term hterm =>
    split at h
    · simp at h
    · next hsearchable =>
      obtain rfl := Gathered.accept_inj.mp h
      simp only [apply, SearchTerm.apply]
      split
      · rfl
      · next htrim =>
        split
        · next hdriver =>
          exact absurd (SortClause.scoreSortable_iff.mpr ⟨hdriver, hsearchable, term, hterm, htrim⟩)
            hscore
        · rfl
  · obtain rfl := Gathered.accept_inj.mp h
    rfl

end SearchClause

theorem Clauses.apply_score (clauses : Clauses) (plan : Plan) :
    ∃ middle : Plan, middle.score = plan.score ∧ middle.orders = (clauses.apply plan).orders ∧
      (clauses.apply plan).score = (clauses.search.apply middle).score := by
  refine ⟨clauses.expand.apply <| clauses.sort.apply <| clauses.filter.apply <|
    clauses.select.apply plan, ?_, ?_, ?_⟩
  · rw [ExpandClause.apply_eq, SortClause.apply_eq, FilterClause.apply_eq, SelectClause.apply,
      Plan.addColumns_eq]
  · rw [Clauses.apply, PageClause.apply_eq, SearchClause.apply_eq]
  · rw [Clauses.apply, PageClause.apply_eq]

/-! ### Accepted requests -/

namespace Request

section

variable {handler : Handler} {entityName : String} {id : Option String} {ps : Parameters}
  {r : Request} (h : r.Parsed handler entityName id ps)

include h

theorem Parsed.rootOrders_eq :
    r.apply.plan.orders = (r.clauses.sort.filed rootPath).map SortKey.order := by
  rw [h.apply_plan, Clauses.apply_orders]
  cases id <;> rfl

/-- The root rows are sorted by a column if a sort names it, alone or behind the path of the root
rows. -/
theorem Parsed.exists_order_iff (column : String) :
    (∃ order ∈ r.apply.plan.orders, order.column = column) ↔
      Undotted column ∧ ∃ key ∈ r.clauses.sort.sorts,
        key.path = column ∨ key.path = rootPath ++ "." ++ column := by
  simp only [h.rootOrders_eq, List.mem_map, exists_exists_and_eq_and, SortKey.order,
    SortClause.mem_filed]
  constructor
  · rintro ⟨key, ⟨hkey, hrelation⟩, rfl⟩
    obtain ⟨hundotted, ⟨hpath, -⟩ | hpath⟩ := eq_or_eq_dotted_of_splitPath key.path
    · exact ⟨hundotted, key, hkey, .inl hpath⟩
    · rw [hrelation] at hpath
      exact ⟨hundotted, key, hkey, .inr hpath⟩
  · rintro ⟨hundotted, key, hkey, hpath | hpath⟩
    · refine ⟨key, ⟨hkey, ?_⟩, ?_⟩ <;> rw [hpath, splitPath_of_undotted hundotted]
    · refine ⟨key, ⟨hkey, ?_⟩, ?_⟩ <;> rw [hpath, splitPath_dotted rootPath hundotted]

/-- A plan that sorts by the score column has a score if the request is for a collection and its
search yields one. -/
theorem Parsed.exists_score_iff
    (horder : ∃ order ∈ r.apply.plan.orders, order.column = r.handler.settings.scoreColumn) :
    (∃ score, r.apply.plan.score = some score ∧ score.label = r.handler.settings.scoreColumn) ↔
      id = none ∧ SortClause.scoreSortable r.context ps = true := by
  obtain ⟨middle, hscore, horders, happly⟩ :=
    r.clauses.apply_score (Handler.basePlan r.entity id)
  rw [← h.apply_plan] at horders happly
  -- the search finds every order in place, and no score but its own is ever set
  have hnone : middle.score = none := by
    rw [hscore]
    cases id <;> rfl
  rw [← horders] at horder
  rw [happly]
  cases id with
  | some id =>
    rw [h.read.noSearch rfl, SearchClause.empty]
    simp [SearchClause.apply, hnone]
  | none =>
    have hread := h.read.search rfl
    by_cases hsortable : SortClause.scoreSortable r.context ps = true
    · simp only [hsortable, and_true, iff_true]
      exact SearchClause.score_apply_of_scoreSortable hread hsortable horder
    · rw [SearchClause.score_apply_of_not_scoreSortable hread hsortable, hnone]
      simp [hsortable]

end

/-- A plan that sorts by the score column sorts by the score that it projects, and exactly two
shapes of a sort escape this: the score column in a request for a single row, and the score column
behind the path of the root rows in a request without a search that yields a score. -/
theorem sortsByScore_iff {handler : Handler} {entityName : String} {id : Option String}
    {ps : Parameters} {r : Request} (h : handler.parse entityName id ps = .ok r) :
    ((∃ order ∈ r.apply.plan.orders, order.column = handler.settings.scoreColumn) →
      r.apply.plan.SortsByScore handler.settings.scoreColumn) ↔
    (Undotted handler.settings.scoreColumn → ∀ key ∈ r.clauses.sort.sorts,
      (key.path = handler.settings.scoreColumn → id = none) ∧
      (key.path = rootPath ++ "." ++ handler.settings.scoreColumn →
        id = none ∧ SortClause.scoreSortable r.context ps = true)) := by
  have hparsed := parsed_of_parse h
  obtain rfl := hparsed.handler_eq
  have hscored := SortClause.scored_of_read hparsed.read.sort
  have hiff : (∃ order ∈ r.apply.plan.orders, order.column = r.handler.settings.scoreColumn) →
      (r.apply.plan.SortsByScore r.handler.settings.scoreColumn ↔
        id = none ∧ SortClause.scoreSortable r.context ps = true) := by
    intro horder
    rw [← hparsed.exists_score_iff horder]
    constructor
    · intro hsorts
      obtain ⟨score, hscore, hlabel, -⟩ := hsorts.projected
      exact ⟨score, hscore, hlabel⟩
    · rintro ⟨score, hscore, hlabel⟩
      rw [← hlabel]
      exact Plan.sortsByScore_of_score hscore
  have hsome := hparsed.exists_order_iff r.handler.settings.scoreColumn
  constructor
  · intro hsorts hundotted key hkey
    have hprojected : key.path = r.handler.settings.scoreColumn ∨
        key.path = rootPath ++ "." ++ r.handler.settings.scoreColumn →
        id = none ∧ SortClause.scoreSortable r.context ps = true := fun hpath => by
      have horder := hsome.mpr ⟨hundotted, key, hkey, hpath⟩
      exact (hiff horder).mp (hsorts horder)
    exact ⟨fun hpath => (hprojected (.inl hpath)).1, fun hpath => hprojected (.inr hpath)⟩
  · intro hkeys horder
    rw [hiff horder]
    obtain ⟨hundotted, key, hkey, hpath | hpath⟩ := hsome.mp horder
    · exact ⟨(hkeys hundotted key hkey).1 hpath, hscored key hkey hpath⟩
    · exact (hkeys hundotted key hkey).2 hpath

/-! ### Searches for posts -/

def searchablePosts : Handler := postsHandler { AllowLists.default with searchable := ["title"] }

theorem sortsByScore_of_search :
    ∃ r, searchablePosts.parse "posts" none
        (.ofPairs [("search", "rust"), ("sort", "-search_score")]) = .ok r ∧
      r.apply.plan.SortsByScore "search_score" := by
  have hread : (searchablePosts.parse "posts" none
      (.ofPairs [("search", "rust"), ("sort", "-search_score")])).toOption.map
        (fun r => (r.clauses.sort.sorts, r.apply.plan.orders)) =
      some ([⟨"search_score", true⟩], [⟨"search_score", true⟩]) := by cbv
  obtain ⟨r, hparse, hr⟩ := exists_ok_of_map_toOption hread
  obtain ⟨hsorts, horders⟩ := Prod.mk.inj hr
  refine ⟨r, hparse, (sortsByScore_iff hparse).mpr ?_ ?_⟩
  · intro _ key hkey
    rw [hsorts, List.mem_singleton] at hkey
    subst hkey
    exact ⟨fun _ => rfl, fun hpath => absurd hpath (by decide)⟩
  · rw [horders]
    exact ⟨_, List.mem_singleton_self _, rfl⟩

/-- A single row is sorted by a column that has the name of the score. -/
theorem single_sorted_by_column :
    ∃ r, searchablePosts.parse "posts" (some "3")
        (.ofPairs [("search", "rust"), ("sort", "search_score")]) = .ok r ∧
      r.apply.plan.orders = [⟨"search_score", false⟩] ∧ r.apply.plan.score = none ∧
      (selectOf r.apply.plan).orders = [(.column ⟨"posts", "search_score"⟩, false)] ∧
      ¬ r.apply.plan.SortsByScore "search_score" := by
  have hread : (searchablePosts.parse "posts" (some "3")
      (.ofPairs [("search", "rust"), ("sort", "search_score")])).toOption.map
        (fun r => (r.apply.plan.orders, r.apply.plan.score, (selectOf r.apply.plan).orders)) =
      some ([⟨"search_score", false⟩], none,
        [(.column ⟨"posts", "search_score"⟩, false)]) := by cbv
  obtain ⟨r, hparse, hr⟩ := exists_ok_of_map_toOption hread
  simp only [Prod.mk.injEq] at hr
  obtain ⟨horders, hscore, htargets⟩ := hr
  refine ⟨r, hparse, horders, hscore, htargets, fun hsorts => ?_⟩
  obtain ⟨score, hsome, -⟩ := hsorts.projected
  rw [hscore] at hsome
  cases hsome

end Request

end RestQuery
