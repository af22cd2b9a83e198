import RestQuery.Clause.Context
import RestQuery.Glob
import RestQuery.Plan

/-!
# Selected columns

`select=id,title` restricts the projection of the root rows.
-/

namespace RestQuery

structure SelectClause where
  columns : List String
deriving DecidableEq, Repr

namespace SelectClause

def empty : SelectClause := ⟨[]⟩

def take (ctx : Context) (clause : SelectClause) (column : String) : Gathered SelectClause :=
  if Glob.isAllowed column ctx.allow.selectable then
    .accept (if clause.columns.contains column then clause else ⟨clause.columns ++ [column]⟩)
  else .refuse clause (.select column)

def read (ctx : Context) (ps : Parameters) (clause : SelectClause) : Gathered SelectClause :=
  match ctx.param? ps ["select", "fields"] with
  | some value => gather (take ctx) clause (Text.listed value)
  | none => .accept clause

def apply (clause : SelectClause) (plan : Plan) : Plan := plan.addColumns clause.columns

end SelectClause

end RestQuery
