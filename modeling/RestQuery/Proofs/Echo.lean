import RestQuery.Proofs.Filing
import RestQuery.Proofs.Load.Run
import RestQuery.Proofs.Page

/-!
# The query without its page

A collection that is asked for page by page tells, with its metadata, the query that it was asked
with, less the page. Whoever reads this query and adds another page asks for the same rows at
another offset: the page stands elsewhere among the parameters than it did, but no filter is read
from it, and every other clause is read from parameters that are looked up by their names.
-/

namespace RestQuery

/-! ### What is read without the page -/

/-- The parameters of two requests are the same but for the page. -/
def SameButPage (settings : Settings) (ps ps' : Parameters) : Prop :=
  ps.without [settings.param "page"] = ps'.without [settings.param "page"]

theorem sameButPage_without (settings : Settings) (ps : Parameters) :
    SameButPage settings ps (ps.without [settings.param "page"]) :=
  (Parameters.without_without ps _).symm

theorem sameButPage_insert (settings : Settings) (ps : Parameters) (value : String) :
    SameButPage settings ps (ps.insert (settings.param "page") value) :=
  (Parameters.without_insert (List.mem_singleton_self _) value).symm

section

variable {ctx : Context} {ps ps' : Parameters} (h : SameButPage ctx.settings ps ps')

include h

theorem SameButPage.agreeOn : ctx.AgreeOn (Settings.reservedNames.erase "page") ps ps' := by
  intro name hmem
  have hnames : ∀ name ∈ Settings.reservedNames.erase "page", name ≠ "page" := by decide
  have hkey : ctx.settings.param name ∉ [ctx.settings.param "page"] := by
    rw [List.mem_singleton, Settings.param_inj]
    exact hnames name hmem
  rw [← Parameters.get?_without hkey, h, Parameters.get?_without hkey]

/-- A page is no filter, so it does not matter where it stands among them. -/
theorem SameButPage.filter_eq (clause : FilterClause) :
    FilterClause.read ctx ps clause = FilterClause.read ctx ps' clause := by
  have hinert : ∀ (pair : String × String) (state : FilterClause),
      (!([ctx.settings.param "page"].contains pair.1)) = false →
        FilterClause.take ctx state pair = .accept state := by
    intro pair state hpair
    have hkey : pair.1 = ctx.settings.param "page" := by simpa using hpair
    have hname : "page" ∈ Settings.reservedNames := by decide
    have hreading : FilterClause.reading ctx pair = .ok none := by
      simp only [FilterClause.reading, hkey, FilterClause.pathOfKey_param hname]
    rw [FilterClause.take_eq, hreading]
    simp
  have hpairs := congrArg Parameters.pairs h
  rw [FilterClause.read, FilterClause.read, ← gather_filter hinert ps.pairs,
    ← gather_filter hinert ps'.pairs]
  exact congrArg (gather _ clause) hpairs

theorem SameButPage.read {clauses : Clauses} (hread : Clauses.Read ctx ps true clauses)
    {page : PageClause} (hpage : PageClause.read ctx ps' .empty = .accept page) :
    Clauses.Read ctx ps' true { clauses with page := page } where
  select := (h.agreeOn.select_eq (by decide) _).symm.trans hread.select
  filter _ := (h.filter_eq _).symm.trans (hread.filter rfl)
  noFilter := nofun
  sort := (h.agreeOn.sort_eq (by decide) _).symm.trans hread.sort
  expand := (h.agreeOn.expand_eq (by decide) _).symm.trans hread.expand
  search _ := (h.agreeOn.search_eq (by decide) _).symm.trans (hread.search rfl)
  noSearch := nofun
  page _ := hpage
  noPage := nofun

end

/-! ### Pages by their number -/

namespace PageClause

/-- The page with a number, counted from 1. -/
def numbered (n size : Nat) : PageClause := ⟨some size, some ((n - 1) * size), true⟩

variable {ctx : Context} {ps : Parameters} {clause : PageClause}

theorem of_pageDriven (h : read ctx ps .empty = .accept clause)
    (hdriven : clause.pageDriven = true) :
    ∃ size, sizeOf ctx ps = .ok size ∧ ctx.param? ps ["offset"] = none ∧
      clause.limit = some size := by
  obtain ⟨size, offset, hasks, rfl⟩ := accept_iff_asks.mp h
  have hnumber : asksNumber ctx ps = true := hdriven
  have hoffset : ps.get? (ctx.settings.param "offset") = none :=
    Option.isNone_iff_eq_none.mp (Bool.and_eq_true_iff.mp hnumber).1
  rw [Context.param?_singleton]
  exact ⟨size, (asks_iff.mp hasks).1, hoffset, rfl⟩

theorem read_eq_accept_iff {size : Nat} {value : String} (hsize : sizeOf ctx ps = .ok size)
    (hoffset : ctx.param? ps ["offset"] = none) (hpage : ctx.param? ps ["page"] = some value) :
    read ctx ps .empty = .accept clause ↔
      ∃ n, pageNumber value = .ok n ∧ (n - 1) * size ≤ greatestOffset ∧
        clause = numbered n size := by
  have hbound : greatestOffset = 2 ^ 63 - 1 := rfl
  rw [Context.param?_singleton] at hoffset hpage
  have hdriven : (PageClause.empty.pageDriven || asksNumber ctx ps) = true := by
    simp [asksNumber, hoffset, hpage]
  simp only [accept_iff_asks, asks_iff, AsksOffset, hsize, hoffset, hpage, hdriven,
    pageNumber_eq_ok_iff, hbound, Except.ok.injEq]
  constructor
  · rintro ⟨given, offset, ⟨rfl, n, hn, hsmall, rfl⟩, rfl⟩
    exact ⟨n, hn, hsmall, rfl⟩
  · rintro ⟨n, hn, hsmall, rfl⟩
    exact ⟨size, _, ⟨rfl, n, hn, hsmall, rfl⟩, rfl⟩

end PageClause

theorem Clauses.apply_limit {clauses : Clauses} {size : Nat}
    (h : clauses.page.limit = some size) (plan : Plan) :
    (clauses.apply plan).limit = some size := by
  simp only [Clauses.apply, PageClause.apply, h]

theorem Clauses.apply_numbered {clauses : Clauses} {size : Nat}
    (h : clauses.page.limit = some size) (n : Nat) (plan : Plan) :
    { clauses with page := .numbered n size }.apply plan =
      { clauses.apply plan with offset := some ((n - 1) * size) } := by
  simp only [Clauses.apply, PageClause.apply, PageClause.numbered, h]

def Handler.parsePage (handler : Handler) (entityName : String) (ps : Parameters)
    (page : String) : Except Failure Request :=
  handler.parse entityName none (ps.insert (handler.settings.param "page") page)

namespace Request

def turned (r : Request) (ps : Parameters) (n size : Nat) : Request :=
  { r with params := ps, clauses := { r.clauses with page := .numbered n size } }

section

variable {handler : Handler} {entityName : String} {ps : Parameters} {r : Request}
  (h : r.Parsed handler entityName none ps) (hdriven : r.clauses.page.pageDriven = true)

include h hdriven

/-- Parameters that are the same but for the page are accepted for every page whose offset is not
too large. -/
theorem Parsed.parse_turned :
    ∃ size, r.clauses.page.limit = some size ∧
      ∀ {ps' : Parameters} {value : String}, SameButPage handler.settings ps ps' →
        ps'.get? (handler.settings.param "page") = some value →
        ∀ r', handler.parse entityName none ps' = .ok r' ↔
          ∃ n, PageClause.pageNumber value = .ok n ∧
            (n - 1) * size ≤ PageClause.greatestOffset ∧ r' = r.turned ps' n size := by
  obtain ⟨size, hsize, hoffset, hlimit⟩ := PageClause.of_pageDriven (h.read.page rfl) hdriven
  obtain rfl := h.handler_eq
  refine ⟨size, hlimit, fun {ps' value} hsame hvalue r' => ?_⟩
  have hsame : SameButPage r.context.settings ps ps' := hsame
  have hpage : r.context.param? ps' ["page"] = some value :=
    (r.context.param?_singleton ps' "page").trans hvalue
  have hsize' : PageClause.sizeOf r.context ps' = .ok size :=
    (hsame.agreeOn.sizeOf_eq (by decide)).symm.trans hsize
  have hoffset' : r.context.param? ps' ["offset"] = none :=
    (hsame.agreeOn.param?_eq (by decide)).symm.trans hoffset
  have hturned : ∀ n, PageClause.pageNumber value = .ok n →
      (n - 1) * size ≤ PageClause.greatestOffset →
      (r.turned ps' n size).Parsed r.handler entityName none ps' := by
    intro n hnumber hsmall
    have hread :=
      (PageClause.read_eq_accept_iff hsize' hoffset' hpage).mpr ⟨n, hnumber, hsmall, rfl⟩
    have hoptions := (hsame.agreeOn.options_eq (by decide)).symm
    exact h.reread (hsame.read h.read hread) hoptions h.checked
  constructor
  · intro hparse
    have hparsed := parsed_of_parse hparse
    have hread := hparsed.read.page rfl
    rw [h.context_eq hparsed] at hread
    obtain ⟨n, hnumber, hsmall, -⟩ :=
      (PageClause.read_eq_accept_iff hsize' hoffset' hpage).mp hread
    exact ⟨n, hnumber, hsmall,
      Except.ok.inj (hparse.symm.trans (hturned n hnumber hsmall).parse_eq)⟩
  · rintro ⟨n, hnumber, hsmall, rfl⟩
    exact (hturned n hnumber hsmall).parse_eq

omit hdriven in
theorem Parsed.plan_turned {size n : Nat} {ps' : Parameters}
    (hlimit : r.clauses.page.limit = some size)
    (hturned : (r.turned ps' n size).Parsed handler entityName none ps') (calls : List Call) :
    ((r.turned ps' n size).afterAll calls).apply.plan =
      { (r.afterAll calls).apply.plan with offset := some ((n - 1) * size) } := by
  rw [hturned.apply_afterAll, h.apply_afterAll]
  exact congrArg (fun plan : Plan => plan.withPredicates _)
    (Clauses.apply_numbered hlimit n r.base)

end

/-! ### The echo -/

/-- Wherever the metadata of a request are evaluated, they tell a query. -/
def Echoes (r : Request) (query : String) : Prop :=
  ∀ db sent entries sent', Yields (MetaSource.evaluateAll db r.metaSources) sent entries sent' →
    entries.lookup queryTitle = some (.text query)

end Request

theorem MetaSource.lookup_evaluateAll {db : Database} {query : String} {counts : List MetaSource}
    (hcounts : ∀ source ∈ counts, source.title ≠ queryTitle) {sent sent' : List Sql.Statement}
    {entries : List (String × Json)}
    (h : Yields (evaluateAll db (counts ++ [.query query])) sent entries sent') :
    entries.lookup queryTitle = some (.text query) := by
  induction counts generalizing sent entries with
  | nil =>
    obtain ⟨value, middle, hvalue, h⟩ := yields_bind.mp h
    obtain ⟨values, last, -, h⟩ := yields_bind.mp h
    obtain ⟨rfl, -⟩ := yields_pure.mp h
    obtain ⟨rfl, -⟩ := yields_pure.mp hvalue
    exact List.lookup_cons_self
  | cons source counts ih =>
    obtain ⟨value, middle, -, h⟩ := yields_bind.mp h
    obtain ⟨values, last, hvalues, h⟩ := yields_bind.mp h
    obtain ⟨rfl, rfl⟩ := yields_pure.mp h
    have hne : (queryTitle == source.title) = false :=
      beq_false_of_ne (hcounts source List.mem_cons_self).symm
    rw [List.lookup_cons, hne]
    have hrest : ∀ source ∈ counts, source.title ≠ queryTitle := fun source hmem =>
      hcounts source (List.mem_cons_of_mem _ hmem)
    exact ih hrest hvalues

namespace Request

theorem echoes_of_pageDriven {r : Request} (h : r.clauses.page.pageDriven = true) :
    r.Echoes (r.params.toQuery [r.handler.settings.param "page"]) := by
  intro db sent entries sent' hrun
  unfold metaSources at hrun
  rw [if_pos h] at hrun
  refine MetaSource.lookup_evaluateAll (fun source hmem => ?_) hrun
  have htitles : totalCountTitle ≠ queryTitle ∧ filterCountTitle ≠ queryTitle := by decide
  simp only [List.mem_append, List.mem_ite_nil_right, List.mem_singleton] at hmem
  rcases hmem with ⟨-, rfl⟩ | ⟨-, rfl⟩
  · exact htitles.1
  · exact htitles.2

/-- What is written of parameters, less some keys, is read as the parameters without these keys. So
the query that a request for a page tells is accepted with any other page whose offset is not too
large. Then it has the plan that the parameters have with this page in place of theirs, which is the
plan of the request but for the offset. -/
theorem echo_rebuilds (pairs : List (String × String)) :
    (∀ excluded, Parameters.ofQuery ((Parameters.ofPairs pairs).toQuery excluded) =
      (Parameters.ofPairs pairs).without excluded) ∧
    ∀ (handler : Handler) (entityName : String) (r : Request),
      handler.parse entityName none (.ofPairs pairs) = .ok r →
      r.clauses.page.pageDriven = true →
      ∃ query size,
        (∀ calls, (r.afterAll calls).apply.Echoes query ∧
          (r.afterAll calls).apply.plan.limit = some size) ∧
        ∀ value,
          ((∃ r', handler.parsePage entityName (.ofQuery query) value = .ok r') ↔
            ∃ n, PageClause.pageNumber value = .ok n ∧
              (n - 1) * size ≤ PageClause.greatestOffset) ∧
          ∀ r', handler.parsePage entityName (.ofQuery query) value = .ok r' →
            ∃ n replaced, PageClause.pageNumber value = .ok n ∧
              handler.parsePage entityName (.ofPairs pairs) value = .ok replaced ∧
              ∀ calls,
                (r'.afterAll calls).apply.plan = (replaced.afterAll calls).apply.plan ∧
                (r'.afterAll calls).apply.plan =
                  { (r.afterAll calls).apply.plan with offset := some ((n - 1) * size) } := by
  have hdistinct := Parameters.distinct_ofPairs pairs
  refine ⟨hdistinct.ofQuery_toQuery, fun handler entityName r hparse hdriven => ?_⟩
  generalize Parameters.ofPairs pairs = ps at hdistinct hparse
  have hparsed := parsed_of_parse hparse
  obtain ⟨size, hlimit, hturn⟩ := hparsed.parse_turned hdriven
  obtain rfl := hparsed.params_eq
  obtain rfl := hparsed.handler_eq
  refine ⟨r.params.toQuery [r.handler.settings.param "page"], size, fun calls => ?_,
    fun value => ?_⟩
  · rw [hparsed.apply_afterAll]
    exact ⟨echoes_of_pageDriven hdriven, Clauses.apply_limit hlimit r.base⟩
  have hsame : SameButPage r.handler.settings r.params
      ((r.params.without [r.handler.settings.param "page"]).insert
        (r.handler.settings.param "page") value) :=
    (sameButPage_without ..).trans (sameButPage_insert ..)
  have hechoed := hturn hsame (Parameters.get?_insert_self _ _ value)
  have hreplaced := hturn (sameButPage_insert ..) (Parameters.get?_insert_self _ _ value)
  rw [hdistinct.ofQuery_toQuery]
  constructor
  · constructor
    · rintro ⟨r', hr'⟩
      obtain ⟨n, hnumber, hsmall, -⟩ := (hechoed r').mp hr'
      exact ⟨n, hnumber, hsmall⟩
    · rintro ⟨n, hnumber, hsmall⟩
      exact ⟨_, (hechoed _).mpr ⟨n, hnumber, hsmall, rfl⟩⟩
  · intro r' hr'
    obtain ⟨n, hnumber, hsmall, rfl⟩ := (hechoed r').mp hr'
    have hr := (hreplaced _).mpr ⟨n, hnumber, hsmall, rfl⟩
    have hplan := hparsed.plan_turned hlimit (parsed_of_parse hr')
    have hplan' := hparsed.plan_turned hlimit (parsed_of_parse hr)
    exact ⟨n, _, hnumber, hr, fun calls => ⟨(hplan calls).trans (hplan' calls).symm, hplan calls⟩⟩

/-! ### Posts by their title -/

def titledPosts : List (String × String) :=
  [("filter[title]", "a b&c"), ("page", "2"), ("pageSize", "10")]

/-- The third page is asked for with the query that the second page tells. -/
theorem echo_rebuilds_third_page :
    ∃ r r', (postsHandler .permissive).parse "posts" none (.ofPairs titledPosts) = .ok r ∧
      r.clauses.page.pageDriven = true ∧
      r.apply.Echoes "filter%5Btitle%5D=a+b%26c&pageSize=10" ∧
      (postsHandler .permissive).parsePage "posts"
        (.ofQuery "filter%5Btitle%5D=a+b%26c&pageSize=10") "3" = .ok r' ∧
      r.apply.plan.offset = some 10 ∧
      r'.apply.plan = { r.apply.plan with offset := some 20 } := by
  have hread : ((postsHandler .permissive).parse "posts" none (.ofPairs titledPosts)).toOption.map
      (fun r => (r.clauses.page.pageDriven, r.params.toQuery [r.handler.settings.param "page"],
        r.options.totalCount, r.options.filterCount, r.apply.plan.limit, r.apply.plan.offset)) =
      some (true, "filter%5Btitle%5D=a+b%26c&pageSize=10", false, false, some 10, some 10) := by
    cbv
  obtain ⟨r, hparse, hr⟩ := exists_ok_of_map_toOption hread
  simp only [Prod.mk.injEq] at hr
  obtain ⟨hdriven, hquery, htotal, hfilter, hlimit, hoffset⟩ := hr
  obtain ⟨query, size, hfacts, hpages⟩ :=
    (echo_rebuilds titledPosts).2 (postsHandler .permissive) "posts" r hparse hdriven
  obtain ⟨hechoes, hsize⟩ := hfacts []
  change r.apply.Echoes query at hechoes
  change r.apply.plan.limit = some size at hsize
  obtain rfl : 10 = size := Option.some.inj (hlimit.symm.trans hsize)
  have hrun : Yields (MetaSource.evaluateAll (fun _ => .rows []) r.apply.metaSources) []
      [(queryTitle, .text "filter%5Btitle%5D=a+b%26c&pageSize=10")] [] := by
    rw [r.apply_eq, ← hquery]
    simp only [metaSources, htotal, hfilter, hdriven]
    rfl
  have htold := hechoes _ _ _ _ hrun
  rw [List.lookup_cons_self] at htold
  obtain rfl := Json.text.inj (Option.some.inj htold)
  obtain ⟨hiff, hplans⟩ := hpages "3"
  have hthird : PageClause.pageNumber "3" = .ok 3 := by decide +kernel
  obtain ⟨r', hparse'⟩ := hiff.mpr ⟨3, hthird, by decide⟩
  obtain ⟨n, replaced, hnumber, -, hplan⟩ := hplans r' hparse'
  obtain rfl : 3 = n := Except.ok.inj (hthird.symm.trans hnumber)
  exact ⟨r, r', hparse, hdriven, hechoes, hparse', hoffset, (hplan []).2⟩

end Request

end RestQuery
