import RestQuery.Proofs.Asked
import RestQuery.Proofs.Calls
import RestQuery.Proofs.Scored

/-!
# Requests for a single row

A request for a single row reads no filters, no search and no page. So its outcome depends on the
other parameters alone, with one exception: whether a sort may name the score column is decided by
the search parameters, also where no search is read. What such a request executes asks for the row
with the primary key, within the scopes.
-/

namespace RestQuery

open Text Sql

def Settings.isCollectionParam (settings : Settings) (key : String) : Bool :=
  let reserved := match stripLead settings.keyPrefix key with
    | some name =>
      ["search", "q", "limit", "pageSize", "offset", "page"].contains name ||
        (stripLead "filter" name).isSome
    | none => false
  reserved || (settings.filterStyle == .flat && !settings.isReserved key)

def AgreeOnRow (settings : Settings) (ps ps' : Parameters) : Prop :=
  ∀ key, settings.isCollectionParam key = false → ps.get? key = ps'.get? key

def SortClause.NamesScore (ctx : Context) (ps : Parameters) : Prop :=
  ∃ token ∈ tokensOf ctx ps, (keyOf token).path = ctx.settings.scoreColumn

def rowNames : List String := ["select", "fields", "sort", "expand", "with", "config"]

theorem Settings.isCollectionParam_param (settings : Settings) {name : String}
    (h : name ∈ rowNames) : settings.isCollectionParam (settings.param name) = false := by
  have hstrip := settings.stripLead_param name
  have hnames : ∀ name ∈ rowNames, reservedNames.contains name = true ∧
      (["search", "q", "limit", "pageSize", "offset", "page"].contains name ||
        (stripLead "filter" name).isSome) = false := by
    decide
  obtain ⟨hreserved, hname⟩ := hnames name h
  simp only [isCollectionParam, isReserved, hstrip, hreserved, hname, Bool.true_or, Bool.not_true,
    Bool.and_false, Bool.or_false]

theorem agreeOnRow_of_filter_eq {settings : Settings} {ps ps' : Parameters}
    (h : (ps.pairs.filter fun pair => !settings.isCollectionParam pair.1) =
      ps'.pairs.filter fun pair => !settings.isCollectionParam pair.1) :
    AgreeOnRow settings ps ps' := by
  intro key hkey
  have hkept : (!settings.isCollectionParam key) = true := by rw [hkey]; rfl
  have hlookup := Parameters.lookup_filter (p := fun key => !settings.isCollectionParam key) hkept
  rw [Parameters.get?, Parameters.get?, ← hlookup, h, hlookup]

section

variable {ctx : Context} {ps ps' : Parameters} (h : AgreeOnRow ctx.settings ps ps')

include h

theorem AgreeOnRow.agreeOn : ctx.AgreeOn rowNames ps ps' := fun _ hmem =>
  h _ (ctx.settings.isCollectionParam_param hmem)

/-- A sort is read alike, unless it names the score column and one search only yields a score. -/
theorem AgreeOnRow.sort_eq
    (hscore : SortClause.NamesScore ctx ps →
      SortClause.scoreSortable ctx ps = SortClause.scoreSortable ctx ps') (clause : SortClause) :
    SortClause.read ctx ps clause = SortClause.read ctx ps' clause := by
  have hparam : ctx.param? ps ["sort"] = ctx.param? ps' ["sort"] := h.agreeOn.param?_eq (by decide)
  rw [SortClause.read, SortClause.read, ← hparam]
  unfold SortClause.NamesScore SortClause.tokensOf at hscore
  cases hvalue : ctx.param? ps ["sort"] with
  | none => rfl
  | some value =>
    rw [hvalue] at hscore
    refine gather_congr (fun token htoken state => ?_) clause
    by_cases hpath : (SortClause.keyOf token).path = ctx.settings.scoreColumn
    · rw [hscore ⟨token, htoken, hpath⟩]
    · simp only [SortClause.take, if_neg hpath]

end

/-- A sort by the score column is refused where no search yields a score, if it would be accepted
where one does. -/
theorem SortClause.refusal_of_unscored {ctx : Context} {tokens : List String}
    {clause next : SortClause} (h : gather (take ctx true) clause tokens = .accept next)
    (hnames : ∃ token ∈ tokens, (keyOf token).path = ctx.settings.scoreColumn) :
    (gather (take ctx false) clause tokens).refusal = some (.sort ctx.settings.scoreColumn) := by
  induction tokens generalizing clause with
  | nil => simp at hnames
  | cons token tokens ih =>
    by_cases hpath : (keyOf token).path = ctx.settings.scoreColumn
    · have htake : take ctx false clause token =
          .refuse clause (.sort ctx.settings.scoreColumn) := by
        simp [take, hpath]
      rw [gather, htake]
      rfl
    · have htake : take ctx false clause token = take ctx true clause token := by
        simp only [take, if_neg hpath]
      rw [gather] at h ⊢
      rw [htake]
      split at h
      · exact ih h (by simpa [hpath] using hnames)
      · simp at h

/-! ### The outcome of parsing -/

theorem Clauses.read_single (ctx : Context) (ps : Parameters) :
    Clauses.read ctx ps false = do
      let select ← (SelectClause.read ctx ps .empty).toExcept
      let sort ← (SortClause.read ctx ps .empty).toExcept
      let expand ← (ExpandClause.read ctx ps .empty).toExcept
      return ⟨select, .empty, sort, expand, .empty, .empty⟩ := by
  simp only [Clauses.read, Bool.false_eq_true, if_false]
  rfl

/-- A sort by the score column is accepted only where a search yields a score. -/
theorem Request.Parsed.scoreSortable_of_namesScore {handler : Handler} {entityName : String}
    {id : Option String} {ps : Parameters} {r : Request}
    (h : r.Parsed handler entityName id ps) (hnames : SortClause.NamesScore r.context ps) :
    SortClause.scoreSortable r.context ps = true := by
  obtain ⟨token, htoken, hpath⟩ := hnames
  have hallowed := ((SortClause.read_eq_accept_iff.mp h.read.sort).1 token htoken).2
  rwa [if_pos hpath] at hallowed

namespace Handler

variable {handler : Handler} {entityName id : String} {ps ps' : Parameters}

theorem parse_congr (h : AgreeOnRow handler.settings ps ps')
    (hscore : ∀ entity, handler.schema.entity? entityName = some entity →
      SortClause.NamesScore (handler.contextFor entity) ps →
      SortClause.scoreSortable (handler.contextFor entity) ps =
        SortClause.scoreSortable (handler.contextFor entity) ps') :
    (handler.parse entityName (some id) ps').map (fun r => { r with params := ps }) =
      handler.parse entityName (some id) ps := by
  unfold parse
  cases hentity : handler.schema.entity? entityName with
  | none => rfl
  | some entity =>
    have hagree : AgreeOnRow (handler.contextFor entity).settings ps ps' := h
    have hread : Clauses.read (handler.contextFor entity) ps false =
        Clauses.read (handler.contextFor entity) ps' false := by
      rw [Clauses.read_single, Clauses.read_single, hagree.agreeOn.select_eq (by decide),
        hagree.agreeOn.expand_eq (by decide), hagree.sort_eq (hscore entity hentity)]
    simp only [Option.isNone_some, hread, hagree.agreeOn.options_eq (by decide)]
    cases Clauses.read (handler.contextFor entity) ps' false with
    | error failure => rfl
    | ok clauses =>
      cases optionsOf (handler.contextFor entity) ps' with
      | error failure => rfl
      | ok options =>
        simp only [bind, Except.bind]
        cases clauses.check <;> rfl

/-- Where a request is accepted since a search yields a score, it is refused if none does. -/
theorem parse_unscored (h : AgreeOnRow handler.settings ps ps') {r : Request}
    (hparse : handler.parse entityName (some id) ps = .ok r)
    (hnames : SortClause.NamesScore r.context ps)
    (hunscored : SortClause.scoreSortable r.context ps' = false) :
    handler.parse entityName (some id) ps' = .error (.sort handler.settings.scoreColumn) := by
  have hparsed := Request.parsed_of_parse hparse
  obtain rfl := hparsed.handler_eq
  have hagree : AgreeOnRow r.context.settings ps ps' := h
  have hselect : SelectClause.read r.context ps' .empty = .accept r.clauses.select := by
    rw [← hagree.agreeOn.select_eq (by decide), hparsed.read.select]
  have hsort : (SortClause.read r.context ps' .empty).refusal =
      some (.sort r.handler.settings.scoreColumn) := by
    have hread := hparsed.read.sort
    have hscored := hparsed.scoreSortable_of_namesScore hnames
    have hparam : r.context.param? ps ["sort"] = r.context.param? ps' ["sort"] :=
      hagree.agreeOn.param?_eq (by decide)
    unfold SortClause.NamesScore SortClause.tokensOf at hnames
    unfold SortClause.read at hread ⊢
    rw [hscored] at hread
    rw [← hparam, hunscored]
    cases hvalue : r.context.param? ps ["sort"] with
    | none => simp [hvalue] at hnames
    | some value =>
      rw [hvalue] at hread hnames
      exact SortClause.refusal_of_unscored hread hnames
  unfold parse
  rw [hparsed.registered]
  change (Clauses.read r.context ps' false >>= _) = _
  rw [Clauses.read_single, hselect]
  simp only [Gathered.toExcept, Gathered.accept, hsort]
  rfl

end Handler

namespace Request

section

variable {handler : Handler} {entityName id : String} {ps : Parameters} {r : Request}
  (h : r.Parsed handler entityName (some id) ps)

include h

theorem Parsed.single_plan (calls : List Call) :
    (r.afterAll calls).apply.plan.table = r.entity.table ∧
      (r.afterAll calls).apply.plan.predicates =
        .compare r.entity.primaryKey .eq id :: scopesOf calls := by
  have hclauses : r.clauses.predicates = [] := by
    rw [Clauses.predicates, h.read.noFilter rfl, h.read.noSearch rfl]
    rfl
  rw [h.apply_afterAll]
  constructor
  · change (r.clauses.apply r.base).table = _
    rw [Clauses.apply_table, h.base_eq]
    rfl
  · change r.base.predicates ++ earlyScopes calls ++ r.clauses.predicates ++ lateScopes calls = _
    rw [hclauses, h.base_predicates, List.append_nil, List.append_assoc,
      earlyScopes_append_lateScopes]
    rfl

theorem Parsed.single_respond (calls : List Call) (db : Database) (before : List Statement) :
    ∃ select related counts,
      Call.sent db (r.afterAll calls) before .respond =
        before ++ (if r.options.countMode then [] else [.select select]) ++ related ++ counts ∧
      select.table = r.entity.table ∧
      select.conditions = Predicate.conditions r.entity.table
        (.compare r.entity.primaryKey .eq id :: scopesOf calls) ∧
      select.limit = some 1 ∧ select.offset = none ∧
      (∀ statement ∈ related, (r.afterAll calls).apply.AsksRelated statement) ∧
      ∀ statement ∈ counts, (r.afterAll calls).apply.Counts statement := by
  obtain ⟨related, counts, hsent, hrelated, hcounts⟩ :=
    (r.afterAll calls).sends_call db before .respond
  obtain ⟨htable, hpredicates⟩ := h.single_plan calls
  have hroots : (r.afterAll calls).apply.rootSelects .respond =
      if r.options.countMode then []
      else [.select (selectOf (r.afterAll calls).apply.plan.forFirst)] := by
    have hmultiple : r.multiple = false := h.multiple_eq
    rw [rootSelects, h.apply_afterAll]
    simp only [settled, hmultiple, Bool.false_eq_true, if_false]
    rfl
  refine ⟨selectOf (r.afterAll calls).apply.plan.forFirst, related, counts, ?_, htable, ?_, rfl,
    rfl, hrelated, hcounts⟩
  · rw [hsent, hroots]
  · change Predicate.conditions (r.afterAll calls).apply.plan.table
      (r.afterAll calls).apply.plan.predicates = _
    rw [htable, hpredicates]

end

/-- What a request for a single row comes to does not depend on what its parameters ask of a
collection, unless a sort names the score column and one of them only asks for a search that yields
a score; then the one without is refused. The select that replies to it has no conditions but the
primary key and the scopes, and it stops at the first row. -/
theorem single_outcome {handler : Handler} {entityName id : String} {ps ps' : Parameters}
    (h : AgreeOnRow handler.settings ps ps') :
    ((∀ entity, handler.schema.entity? entityName = some entity →
        SortClause.NamesScore (handler.contextFor entity) ps →
        SortClause.scoreSortable (handler.contextFor entity) ps =
          SortClause.scoreSortable (handler.contextFor entity) ps') →
      (handler.parse entityName (some id) ps').map (fun r => { r with params := ps }) =
        handler.parse entityName (some id) ps) ∧
    ∀ r, handler.parse entityName (some id) ps = .ok r →
      ((handler.parse entityName (some id) ps').map (fun r => { r with params := ps }) = .ok r ↔
        (SortClause.NamesScore r.context ps → SortClause.scoreSortable r.context ps' = true)) ∧
      (SortClause.NamesScore r.context ps → SortClause.scoreSortable r.context ps' = false →
        handler.parse entityName (some id) ps' = .error (.sort handler.settings.scoreColumn)) ∧
      ∀ calls db before, ∃ select related counts,
        Call.sent db (r.afterAll calls) before .respond =
          before ++ (if r.options.countMode then [] else [.select select]) ++ related ++ counts ∧
        select.table = r.entity.table ∧
        select.conditions = Predicate.conditions r.entity.table
          (.compare r.entity.primaryKey .eq id :: scopesOf calls) ∧
        select.limit = some 1 ∧ select.offset = none ∧
        (∀ statement ∈ related, (r.afterAll calls).apply.AsksRelated statement) ∧
        ∀ statement ∈ counts, (r.afterAll calls).apply.Counts statement := by
  refine ⟨Handler.parse_congr h, fun r hparse => ⟨⟨fun hsame hnames => ?_, fun hscore => ?_⟩,
    Handler.parse_unscored h hparse, (parsed_of_parse hparse).single_respond⟩⟩
  · by_contra hunscored
    rw [Handler.parse_unscored h hparse hnames (by simpa using hunscored)] at hsame
    cases hsame
  · rw [← hparse]
    have hparsed := parsed_of_parse hparse
    refine Handler.parse_congr h fun entity hentity hnames => ?_
    obtain rfl : r.entity = entity := Option.some.inj (hparsed.registered.symm.trans hentity)
    have hcontext : r.context = handler.contextFor r.entity := by
      rw [context, hparsed.handler_eq]
    rw [← hcontext] at hnames ⊢
    rw [hparsed.scoreSortable_of_namesScore hnames, hscore hnames]

/-! ### A single post -/

theorem single_outcome_of_page :
    ∃ r, (postsHandler .permissive).parse "posts" (some "3")
        (.ofPairs [("limit", "5"), ("filter[id]", "1"), ("sort", "-id")]) = .ok r ∧
      ((postsHandler .permissive).parse "posts" (some "3") (.ofPairs [("sort", "-id")])).map
        (fun r => { r with
          params := .ofPairs [("limit", "5"), ("filter[id]", "1"), ("sort", "-id")] }) = .ok r := by
  have hagree : AgreeOnRow (postsHandler .permissive).settings
      (.ofPairs [("limit", "5"), ("filter[id]", "1"), ("sort", "-id")])
      (.ofPairs [("sort", "-id")]) := agreeOnRow_of_filter_eq (by decide)
  have hread : ((postsHandler .permissive).parse "posts" (some "3")
      (.ofPairs [("limit", "5"), ("filter[id]", "1"), ("sort", "-id")])).toOption.map
        (fun r => ((SortClause.tokensOf r.context r.params).map SortClause.keyOf,
          r.context.settings.scoreColumn, r.params)) =
      some ([⟨"id", true⟩], "search_score",
        .ofPairs [("limit", "5"), ("filter[id]", "1"), ("sort", "-id")]) := by decide
  obtain ⟨r, hparse, hr⟩ := exists_ok_of_map_toOption hread
  simp only [Prod.mk.injEq] at hr
  obtain ⟨hkeys, hscore, hparams⟩ := hr
  rw [hparams] at hkeys
  refine ⟨r, hparse, (((single_outcome hagree).2 r hparse).1).mpr ?_⟩
  rintro ⟨token, htoken, hpath⟩
  have hkey : SortClause.keyOf token ∈ [⟨"id", true⟩] := hkeys ▸ List.mem_map_of_mem htoken
  rw [List.mem_singleton.mp hkey, hscore] at hpath
  exact absurd hpath (by decide)

/-- A search that is not run makes a difference to a sort by its score. -/
theorem single_refused_without_search :
    AgreeOnRow searchablePosts.settings (.ofPairs [("search", "rust"), ("sort", "search_score")])
        (.ofPairs [("sort", "search_score")]) ∧
      (∃ r, searchablePosts.parse "posts" (some "3")
        (.ofPairs [("search", "rust"), ("sort", "search_score")]) = .ok r ∧
        r.clauses.search = .empty) ∧
      searchablePosts.parse "posts" (some "3") (.ofPairs [("sort", "search_score")]) =
        .error (.sort "search_score") := by
  have hagree : AgreeOnRow searchablePosts.settings
      (.ofPairs [("search", "rust"), ("sort", "search_score")])
      (.ofPairs [("sort", "search_score")]) := agreeOnRow_of_filter_eq (by decide)
  have hread : (searchablePosts.parse "posts" (some "3")
      (.ofPairs [("search", "rust"), ("sort", "search_score")])).toOption.map (fun r =>
        (r.clauses.search,
          SortClause.tokensOf r.context (.ofPairs [("search", "rust"), ("sort", "search_score")]),
          r.context.settings.scoreColumn,
          SortClause.scoreSortable r.context (.ofPairs [("sort", "search_score")]))) =
      some (.empty, ["search_score"], "search_score", false) := by decide
  obtain ⟨r, hparse, hr⟩ := exists_ok_of_map_toOption hread
  simp only [Prod.mk.injEq] at hr
  obtain ⟨hsearch, htokens, hscore, hunscored⟩ := hr
  have hnames : SortClause.NamesScore r.context
      (.ofPairs [("search", "rust"), ("sort", "search_score")]) := by
    refine ⟨"search_score", ?_, ?_⟩
    · rw [htokens]
      exact List.mem_singleton_self _
    · rw [hscore]
      decide
  exact ⟨hagree, ⟨r, hparse, hsearch⟩, Handler.parse_unscored hagree hparse hnames hunscored⟩

end Request

end RestQuery
