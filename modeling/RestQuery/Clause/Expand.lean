import RestQuery.Clause.Context
import RestQuery.Glob
import RestQuery.Plan

/-!
# Expanded relations

`expand=comments[title],comments.user` loads the comments of every row, restricted to a column, and
the user of every comment. Restricting a projection must not drop the keys that tie rows together.
So the walk along a path records, for each path on the way, the columns that are required there:
the parent keys of the next relation, and where columns are requested the related keys of the last.
-/

namespace RestQuery

def extendUnique (columns more : List String) : List String :=
  more.foldl (fun columns c => if columns.contains c then columns else columns ++ [c]) columns

structure PathColumns where
  /-- Keys that tie the rows to their parents and children. -/
  required : List String
  requested : List String
deriving DecidableEq, Repr

namespace PathColumns

def empty : PathColumns := ⟨[], []⟩

def require (cols : PathColumns) (columns : List String) : PathColumns :=
  { cols with required := extendUnique cols.required columns }

def request (cols : PathColumns) (columns : List String) : PathColumns :=
  { cols with requested := extendUnique cols.requested columns }

def all (cols : PathColumns) : List String := extendUnique cols.required cols.requested

end PathColumns

structure Expansion where
  paths : Dict PathColumns
deriving DecidableEq, Repr

namespace Expansion

def empty : Expansion := ⟨[]⟩

def get? (e : Expansion) (path : String) : Option PathColumns := e.paths.get? path

def columns (e : Expansion) (path : String) : List String :=
  ((e.get? path).map PathColumns.all).getD []

/-- The projection at a path: all its columns if some are requested, and otherwise `none`, which
stands for every column. -/
def projection (e : Expansion) (path : String) : Option (List String) :=
  match e.get? path with
  | some cols => if cols.requested = [] then none else some cols.all
  | none => none

def relationPaths (e : Expansion) : List String := e.paths.keys.filter (· ≠ rootPath)

def contains (e : Expansion) (path : String) : Bool := path ≠ rootPath && e.paths.contains path

def update (e : Expansion) (path : String) (f : PathColumns → PathColumns) : Expansion :=
  ⟨e.paths.update path .empty f⟩

end Expansion

/-- A path to expand, with the columns it is restricted to; no columns stand for all. -/
structure ExpandItem where
  path : String
  columns : List String
deriving DecidableEq, Repr

namespace ExpandItem

/-- Where the reading of a list of paths stands; the texts being read are held backwards. -/
inductive Place where
  | between
  | inPath (path : List Char)
  | inColumns (path columns : List Char)
deriving DecidableEq, Repr

/-- The paths with what stands in brackets after each. A bracket that is never closed separates
paths like a comma. -/
def scan : Place → List Char → List (List Char × List Char)
  | .between, [] => []
  | .inPath path, [] => [(path.reverse, [])]
  | .inColumns _ _, [] => []
  | .between, c :: cs =>
    if c = ',' ∨ c = '[' then scan .between cs else scan (.inPath [c]) cs
  | .inPath path, c :: cs =>
    if c = ',' then (path.reverse, []) :: scan .between cs
    else if c = '[' then
      if cs.contains ']' then scan (.inColumns path []) cs
      else (path.reverse, []) :: scan .between cs
    else scan (.inPath (c :: path)) cs
  | .inColumns path columns, c :: cs =>
    if c = ']' then (path.reverse, columns.reverse) :: scan .between cs
    else scan (.inColumns path (c :: columns)) cs

def readAll (value : String) : List ExpandItem :=
  ((scan .between value.toList).map fun (path, columns) =>
    ⟨Text.trim (String.ofList path), Text.listed (String.ofList columns)⟩).filter (·.path ≠ "")

end ExpandItem

structure ExpandClause where
  expansion : Expansion
deriving DecidableEq, Repr

namespace ExpandClause

def empty : ExpandClause := ⟨.empty⟩

/-- Allowing `comments.*` also allows `comments`. -/
def isExpandable (ctx : Context) (path : String) : Bool :=
  Glob.isAllowed path ctx.allow.expandable || Glob.isAllowed (path ++ ".*") ctx.allow.expandable

def pathBelow (above : Option String) (segment : String) : String :=
  match above with
  | some path => path ++ "." ++ segment
  | none => segment

def record (entity : Entity) (relation : Relation) (related : Option Entity)
    (above : Option String) (segment : String) (columns : List String) (e : Expansion) :
    Expansion :=
  let parentKeys := (relation.parentKeys entity.primaryKey).map entity.qualified
  let e := e.update (above.getD rootPath) (·.require parentKeys)
  e.update (pathBelow above segment) fun cols =>
    match columns, related with
    | [], _ => cols
    | _, none => cols
    | columns, some related =>
      let keys := (relation.relatedKeys (some related.primaryKey)).map related.qualified
      (cols.require keys).request (columns.map related.qualified)

/-- Walks the segments of the path of `item` from `entity` on. `polymorphic` is the segment before,
if its target differs from row to row. -/
def walk (ctx : Context) (item : ExpandItem) (entity : Entity) (above polymorphic : Option String)
    (e : Expansion) : List String → Gathered Expansion
  | [] => .accept e
  | segment :: rest =>
    match polymorphic with
    | some previous => .refuse e (.expand item.path (.pastPolymorphic previous))
    | none =>
      match entity.relation? segment with
      | none => .refuse e (.unknownRelation entity.name segment)
      | some relation =>
        let columns := if rest = [] then item.columns else []
        let step (related : Option Entity) : Gathered Expansion :=
          if columns ≠ [] ∧ relation.kind.rejectsColumns then
            .refuse e (.expand item.path .columnsOfPolymorphic)
          else
            let e := record entity relation related above segment columns e
            let path := pathBelow above segment
            if relation.kind = .morphTo then walk ctx item entity (some path) (some segment) e rest
            else walk ctx item (related.getD entity) (some path) none e rest
        match relation.related with
        | none => step none
        | some name =>
          match ctx.schema.entity? name with
          | some related => step (some related)
          | none => .refuse e (.internal (.unregisteredTarget entity.name segment name))

def take (ctx : Context) (e : Expansion) (item : ExpandItem) : Gathered Expansion :=
  if isExpandable ctx item.path then
    walk ctx item ctx.entity none none e (Text.pieces '.' item.path)
  else .refuse e (.expand item.path .notAllowed)

def read (ctx : Context) (ps : Parameters) (clause : ExpandClause) : Gathered ExpandClause :=
  match ctx.param? ps ["expand", "with"] with
  | some value =>
    let g := gather (take ctx) clause.expansion (ExpandItem.readAll value)
    ⟨⟨g.state⟩, g.refusal⟩
  | none => .accept clause

/-- Loads every expanded path with its projection, and adds the keys that the root rows need to a
projection that is restricted. -/
def apply (clause : ExpandClause) (plan : Plan) : Plan :=
  let e := clause.expansion
  let plan := e.relationPaths.foldl
    (fun plan path =>
      plan.updateLoad path fun load => { load with columns := e.projection path })
    plan
  if plan.select = [] then plan else plan.addColumns (e.columns rootPath)

end ExpandClause

end RestQuery
