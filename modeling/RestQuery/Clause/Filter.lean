import RestQuery.Clause.Context
import RestQuery.Glob
import RestQuery.Plan

/-!
# Filters of a request

In the bracketed style a filter is spelled `filter[path]` or `filter-suffix[path]`, where
`filter[a][b]` is another way to write `filter[a.b]`, and a suffix may also end the path. In the
flat style every parameter that is not reserved is a filter. A filter is filed under the relation
path before its column.
-/

namespace RestQuery

structure FiledFilter where
  relation : String
  path : String
  predicate : Predicate
deriving Repr

structure FilterClause where
  filters : List FiledFilter
deriving Repr

inductive FilterKey where
  | unrelated
  | malformed
  | filter (suffix : Option String) (path : String)
deriving DecidableEq, Repr

namespace FilterKey

/-- The segments of `[a][b]`, none of them empty; `opened` holds the segment being read,
backwards. -/
def segmentsFrom : Option (List Char) → List Char → Option (List (List Char))
  | none, [] => some []
  | some _, [] => none
  | none, c :: cs => if c = '[' then segmentsFrom (some []) cs else none
  | some opened, c :: cs =>
    if c = ']' then
      if opened = [] then none else (segmentsFrom none cs).map (opened.reverse :: ·)
    else if c = '[' then none
    else segmentsFrom (some (c :: opened)) cs

def isSmallLetter (c : Char) : Bool := 'a' ≤ c && c ≤ 'z'

def isSuffixChar (c : Char) : Bool := isSmallLetter c || c == '-'

def pathOf (cs : List Char) : Option String :=
  match segmentsFrom none cs with
  | some (segment :: rest) => some (".".intercalate ((segment :: rest).map String.ofList))
  | _ => none

def read (name : List Char) : FilterKey :=
  match Text.afterLead "filter".toList name with
  | some ('[' :: rest) =>
    match pathOf ('[' :: rest) with
    | some path => filter none path
    | none => malformed
  | some ('-' :: rest) =>
    let suffix := rest.takeWhile isSuffixChar
    match suffix.head?.any isSmallLetter, pathOf (rest.dropWhile isSuffixChar) with
    | true, some path => filter (some (String.ofList suffix)) path
    | _, _ => malformed
  | _ => unrelated

end FilterKey

namespace FilterClause

def empty : FilterClause := ⟨[]⟩

/-- The filters on related rows, as their relation and their whole path. -/
def relationPaths (clause : FilterClause) : List (String × String) :=
  (clause.filters.filter (·.relation ≠ rootPath)).map fun f => (f.relation, f.path)

def add (ctx : Context) (clause : FilterClause) (path suffix value : String) :
    Gathered FilterClause :=
  match ctx.filters.resolve suffix with
  | none => .refuse clause (.parameter (.unknownSuffix suffix))
  | some strategy =>
    if Glob.isAllowed path ctx.allow.filterable then
      let (relation, column) := splitPath path
      .accept ⟨clause.filters ++ [⟨relation, path, strategy.build column value⟩]⟩
    else .refuse clause (.filter path)

def takeBracketed (ctx : Context) (clause : FilterClause) (key value : String) :
    Gathered FilterClause :=
  match Text.stripLead ctx.settings.keyPrefix key with
  | none => .accept clause
  | some name =>
    match FilterKey.read name.toList with
    | .unrelated => .accept clause
    | .malformed => .refuse clause (.parameter (.malformedFilter key))
    | .filter (some suffix) path => add ctx clause path suffix value
    | .filter none path =>
      let (path, suffix) := ctx.filters.splitSuffix path
      add ctx clause path suffix value

def takeFlat (ctx : Context) (clause : FilterClause) (key value : String) :
    Gathered FilterClause :=
  if ctx.settings.isReserved key then .accept clause
  else
    let (path, suffix) := ctx.filters.splitSuffix key
    add ctx clause path suffix value

def take (ctx : Context) (clause : FilterClause) (pair : String × String) :
    Gathered FilterClause :=
  match ctx.settings.filterStyle with
  | .bracketed => takeBracketed ctx clause pair.1 pair.2
  | .flat => takeFlat ctx clause pair.1 pair.2

def read (ctx : Context) (ps : Parameters) (clause : FilterClause) : Gathered FilterClause :=
  gather (take ctx) clause ps.pairs

def applyFilter (plan : Plan) (filter : FiledFilter) : Plan :=
  if filter.relation = rootPath then plan.addPredicate filter.predicate
  else
    plan.updateLoad filter.relation fun load =>
      { load with predicates := load.predicates ++ [filter.predicate] }

def apply (clause : FilterClause) (plan : Plan) : Plan := clause.filters.foldl applyFilter plan

end FilterClause

end RestQuery
