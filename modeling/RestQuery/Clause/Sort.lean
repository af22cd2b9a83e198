import RestQuery.Clause.Context
import RestQuery.Glob
import RestQuery.Plan

/-!
# Sort orders of a request

`sort=-created_at,comments.id`: a hyphen sorts downwards, a dotted path sorts related rows. The
score column may be sorted by only if the request runs a full-text search.
-/

namespace RestQuery

structure SortKey where
  path : String
  descending : Bool
deriving DecidableEq, Repr

structure SortClause where
  sorts : List SortKey
deriving DecidableEq, Repr

namespace SortClause

def empty : SortClause := ⟨[]⟩

/-- The sorts of related rows, as their relation and their whole path. -/
def relationPaths (clause : SortClause) : List (String × String) :=
  clause.sorts.filterMap fun key =>
    let relation := (splitPath key.path).1
    if relation = rootPath then none else some (relation, key.path)

def scoreSortable (ctx : Context) (ps : Parameters) : Bool :=
  ctx.settings.searchDriver == .native && ctx.allow.searchable != [] &&
    match ctx.param? ps ["search", "q"] with
    | some term => Text.trim term != ""
    | none => false

def keyOf (token : String) : SortKey :=
  match Text.stripLead "-" token with
  | some path => ⟨path, true⟩
  | none => ⟨token, false⟩

def take (ctx : Context) (scored : Bool) (clause : SortClause) (token : String) :
    Gathered SortClause :=
  let key := keyOf token
  let allowed := if key.path = ctx.settings.scoreColumn then scored
    else Glob.isAllowed key.path ctx.allow.sortable
  if key.path ≠ "" ∧ allowed then .accept ⟨clause.sorts ++ [key]⟩
  else .refuse clause (.sort key.path)

def read (ctx : Context) (ps : Parameters) (clause : SortClause) : Gathered SortClause :=
  match ctx.param? ps ["sort"] with
  | some value => gather (take ctx (scoreSortable ctx ps)) clause (Text.listed value)
  | none => .accept clause

def applyKey (plan : Plan) (key : SortKey) : Plan :=
  let (relation, column) := splitPath key.path
  if relation = rootPath then plan.addOrder ⟨column, key.descending⟩
  else
    plan.updateLoad relation fun load =>
      { load with orders := load.orders ++ [⟨column, key.descending⟩] }

def apply (clause : SortClause) (plan : Plan) : Plan := clause.sorts.foldl applyKey plan

end SortClause

end RestQuery
