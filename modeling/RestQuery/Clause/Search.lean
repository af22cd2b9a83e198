import RestQuery.Clause.Context
import RestQuery.Plan

/-!
# Search terms

`search=term` looks the term up in the searchable columns. The native driver leaves this to the
full-text index of the database and projects the relevance; the other one looks for each word of the
term. A blank term finds nothing.
-/

namespace RestQuery

structure SearchTerm where
  term : String
  driver : SearchDriver
  columns : List String
  scoreColumn : String
deriving DecidableEq, Repr

structure SearchClause where
  search : Option SearchTerm
deriving DecidableEq, Repr

namespace SearchTerm

def keywords (s : SearchTerm) : Predicate :=
  .any (s.columns.flatMap fun column =>
    (Text.words s.term).map fun word =>
      .like column ("%" ++ Like.escape word ++ "%") false (some '\\'))

/-- Whether the plan shows the score: it selects every column, or names the score. -/
def wantsScore (s : SearchTerm) (plan : Plan) : Bool :=
  plan.select == [] || plan.select.contains s.scoreColumn ||
    plan.orders.any fun order => order.column == s.scoreColumn

def applyNative (s : SearchTerm) (plan : Plan) : Plan :=
  let plan := plan.addPredicate (.search s.columns s.term)
  if s.wantsScore plan then { plan with score := some ⟨s.scoreColumn, s.columns, s.term⟩ }
  else plan

def apply (s : SearchTerm) (plan : Plan) : Plan :=
  if Text.trim s.term = "" then plan.addPredicate .never
  else
    match s.driver with
    | .native => s.applyNative plan
    | .like => plan.addPredicate s.keywords

end SearchTerm

namespace SearchClause

def empty : SearchClause := ⟨none⟩

def read (ctx : Context) (ps : Parameters) (clause : SearchClause) : Gathered SearchClause :=
  match ctx.param? ps ["search", "q"] with
  | some term =>
    if ctx.allow.searchable = [] then .refuse clause (.search .nothingSearchable)
    else
      .accept ⟨some ⟨term, ctx.settings.searchDriver, ctx.allow.searchable,
        ctx.settings.scoreColumn⟩⟩
  | none => .accept clause

def apply (clause : SearchClause) (plan : Plan) : Plan :=
  match clause.search with
  | some s => s.apply plan
  | none => plan

end SearchClause

end RestQuery
