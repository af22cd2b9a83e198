import RestQuery.Clause.Expand
import RestQuery.Clause.Filter
import RestQuery.Clause.Page
import RestQuery.Clause.Search
import RestQuery.Clause.Select
import RestQuery.Clause.Sort
import RestQuery.Clean
import RestQuery.Load
import RestQuery.Reply

/-!
# Requests

A handler holds what all requests share. A request is parsed as a whole before anything is sent to
the database; its clauses are applied to its plan once. Filters and sorts of related rows are
accepted only on relations that the request expands. A scope restricts the request whatever its
parameters say, also in its total count.
-/

namespace RestQuery

structure Handler where
  settings : Settings
  schema : Schema
  filters : Registry

structure Clauses where
  select : SelectClause
  filter : FilterClause
  sort : SortClause
  expand : ExpandClause
  search : SearchClause
  page : PageClause

structure Request where
  handler : Handler
  entity : Entity
  params : Parameters
  clauses : Clauses
  options : ReplyOptions
  /-- The plan before any clause is applied. -/
  base : Plan
  plan : Plan
  applied : Bool
  /-- Whether the request is for a collection and not for one row. -/
  multiple : Bool

namespace Clauses

/-- Reads the clauses of a request. One for a single row has no filters, search and page. -/
def read (ctx : Context) (ps : Parameters) (multiple : Bool) : Except Failure Clauses := do
  let select ← (SelectClause.read ctx ps .empty).toExcept
  let filter ← if multiple then (FilterClause.read ctx ps .empty).toExcept else .ok .empty
  let sort ← (SortClause.read ctx ps .empty).toExcept
  let expand ← (ExpandClause.read ctx ps .empty).toExcept
  let search ← if multiple then (SearchClause.read ctx ps .empty).toExcept else .ok .empty
  let page ← if multiple then (PageClause.read ctx ps .empty).toExcept else .ok .empty
  return ⟨select, filter, sort, expand, search, page⟩

def unexpanded (e : Expansion) (paths : List (String × String)) : Option String :=
  (paths.find? fun (relation, _) => !e.contains relation).map Prod.snd

def check (clauses : Clauses) : Except Failure Unit :=
  match unexpanded clauses.expand.expansion clauses.filter.relationPaths with
  | some path => .error (.filter path)
  | none =>
    match unexpanded clauses.expand.expansion clauses.sort.relationPaths with
    | some path => .error (.sort path)
    | none => .ok ()

/-- Applies the clauses in their fixed order: the search comes after select and sort, on which its
score depends. -/
def apply (clauses : Clauses) (plan : Plan) : Plan :=
  clauses.page.apply <| clauses.search.apply <| clauses.expand.apply <| clauses.sort.apply <|
    clauses.filter.apply <| clauses.select.apply plan

end Clauses

namespace Handler

def allowFor (handler : Handler) (entity : Entity) : AllowLists :=
  match entity.allow with
  | some own => handler.settings.allow.merged own
  | none => handler.settings.allow

def contextFor (handler : Handler) (entity : Entity) : Context :=
  ⟨handler.settings, handler.allowFor entity, handler.schema, entity, handler.filters⟩

def basePlan (entity : Entity) (id : Option String) : Plan :=
  match id with
  | some id => (Plan.ofTable entity.table).addPredicate (.compare entity.primaryKey .eq id)
  | none => Plan.ofTable entity.table

def optionsOf (ctx : Context) (ps : Parameters) : Except Failure ReplyOptions :=
  match ctx.param? ps ["config"] with
  | some value => ReplyOptions.read ctx.settings value
  | none => .ok (ReplyOptions.ofSettings ctx.settings)

def parse (handler : Handler) (entityName : String) (id : Option String) (ps : Parameters) :
    Except Failure Request :=
  match handler.schema.entity? entityName with
  | none => .error (.internal (.unregisteredEntity entityName))
  | some entity => do
    let ctx := handler.contextFor entity
    let clauses ← Clauses.read ctx ps id.isNone
    let options ← optionsOf ctx ps
    clauses.check
    let base := basePlan entity id
    return ⟨handler, entity, ps, clauses, options, base, base, false, id.isNone⟩

end Handler

namespace Request

def scope (r : Request) (p : Predicate) : Request :=
  { r with base := r.base.addPredicate p, plan := r.plan.addPredicate p }

/-- Applies the clauses to the plan, unless that has been done. -/
def apply (r : Request) : Request :=
  if r.applied then r else { r with plan := r.clauses.apply r.plan, applied := true }

def restrictions (r : Request) : List (String × List String) :=
  r.clauses.expand.expansion.relationPaths.filterMap fun path =>
    match r.clauses.expand.expansion.get? path with
    | some cols => if cols.requested = [] then none else some (path, cols.requested)
    | none => none

def selectedColumns (r : Request) : SelectedColumns :=
  let root := r.clauses.select.columns
  let start := if root = [] then .empty else SelectedColumns.empty.restrict rootPath root
  r.restrictions.foldl (fun s (path, columns) => s.restrict path columns) start

def cleaner (r : Request) : Cleaner where
  schema := r.handler.schema
  relations :=
    if r.handler.settings.cleanExpansions then some r.clauses.expand.expansion.relationPaths
    else none
  columns := if r.handler.settings.cleanSelects then some r.selectedColumns else none
  scoreColumn := r.handler.settings.scoreColumn

def fetch (r : Request) (db : Database) (plan : Plan) : Run (List Row) := do
  let rows ← db.ask (.ofPlan plan)
  let rows ← Load.run db r.handler.schema plan.loads r.entity rows
  return r.cleaner.cleanRows r.entity rows

def get (r : Request) (db : Database) : Run (List Row) :=
  let r := r.apply
  r.fetch db r.plan

def first (r : Request) (db : Database) : Run (Option Row) := do
  let r := r.apply
  let rows ← r.fetch db { r.plan with limit := some 1, offset := none }
  return rows.head?

def metaSources (r : Request) : List MetaSource :=
  (if r.options.totalCount then [.count totalCountTitle r.base] else []) ++
    (if r.options.filterCount then [.count filterCountTitle r.plan] else []) ++
    (if r.clauses.page.pageDriven then
      [.query (r.params.toQuery [r.handler.settings.param "page"])] else [])

def data (r : Request) (db : Database) : Run (Json × Nat) := do
  if r.options.countMode then return (.null, 0)
  else if r.multiple then
    let rows ← r.get db
    return (.array (rows.map .object), rows.length)
  else
    let row ← r.first db
    return ((row.map Json.object).getD .null, 0)

def natOf : Json → Nat
  | .number (.int n) => n.toNat
  | _ => 0

/-- The number of rows that match the request: from the metadata, or else counted now. -/
def filteredCount (r : Request) (db : Database) (entries : List (String × Json)) : Run Nat :=
  match entries.lookup filterCountTitle with
  | some value => return natOf value
  | none => db.count (.countOf r.plan)

/-- Flat replies for a collection tell their range, if the total count is requested. -/
def rangeHeaders (r : Request) (db : Database) (entries : List (String × Json))
    (returned : Nat) : Run Headers := do
  if r.multiple && r.options.totalCount && !r.options.countMode && !r.options.envelope then
    let total ← r.filteredCount db entries
    return contentRangeHeaders (r.plan.offset.getD 0) returned total r.entity.table
  else return []

def respond (r : Request) (db : Database) : Run Reply := do
  let r := r.apply
  let (data, returned) ← r.data db
  let entries ← MetaSource.evaluateAll db r.metaSources
  let range ← r.rangeHeaders db entries returned
  return Reply.render r.options entries data range

end Request

/-- Answers a request; a failure is rendered with the statuses of the settings. Also returns the
statements that were sent. -/
def Handler.answer (handler : Handler) (db : Database) (entityName : String) (id : Option String)
    (ps : Parameters) : HttpReply × List Sql.Statement :=
  match handler.parse entityName id ps with
  | .error failure => (failure.toHttp handler.settings.statuses, [])
  | .ok request =>
    match (request.respond db).run.run [] with
    | (.ok reply, sent) => (reply.toHttp, sent)
    | (.error failure, sent) => (failure.toHttp handler.settings.statuses, sent)

end RestQuery
