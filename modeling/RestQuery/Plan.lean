import RestQuery.Dict
import RestQuery.Predicate
import RestQuery.Text.Pieces

/-!
# Query plans

A plan collects what a request asks of one table: columns, predicates, orders, a page, and what to
load of related tables, by dotted relation path. The projection is a set: two names are the same
column if they agree once bare names are qualified with the table.
-/

namespace RestQuery

/-- `column` with a table before it, unless it has one. -/
def qualify (table column : String) : String :=
  if column.toList.contains '.' then column else table ++ "." ++ column

def rootPath : String := "."

/-- Splits `comments.user.name` into `comments.user` and `name`; a plain column belongs to the root
path. -/
def splitPath (path : String) : String × String := (Text.cutLast '.' path).getD (rootPath, path)

structure Order where
  column : String
  descending : Bool
deriving DecidableEq, Repr

structure Score where
  label : String
  columns : List String
  term : String
deriving DecidableEq, Repr

structure EagerLoad where
  /-- The projection, or `none` for every column. -/
  columns : Option (List String)
  predicates : List Predicate
  orders : List Order
deriving Repr, Inhabited

def EagerLoad.empty : EagerLoad := ⟨none, [], []⟩

structure Plan where
  table : String
  /-- The projection; the empty one stands for every column. -/
  select : List String
  score : Option Score
  predicates : List Predicate
  orders : List Order
  limit : Option Nat
  offset : Option Nat
  loads : Dict EagerLoad
deriving Repr, Inhabited

namespace Plan

def ofTable (table : String) : Plan := ⟨table, [], none, [], [], none, none, []⟩

def qualify (plan : Plan) (column : String) : String := RestQuery.qualify plan.table column

def addColumn (plan : Plan) (column : String) : Plan :=
  if plan.select.any fun present => plan.qualify present == plan.qualify column then plan
  else { plan with select := plan.select ++ [column] }

def addColumns (plan : Plan) (columns : List String) : Plan := columns.foldl addColumn plan

def addPredicate (plan : Plan) (p : Predicate) : Plan :=
  { plan with predicates := plan.predicates ++ [p] }

def addOrder (plan : Plan) (order : Order) : Plan := { plan with orders := plan.orders ++ [order] }

def updateLoad (plan : Plan) (path : String) (f : EagerLoad → EagerLoad) : Plan :=
  { plan with loads := plan.loads.update path .empty f }

/-- The plan without page, order and loads, which do not change the count of its rows. -/
def forCount (plan : Plan) : Plan :=
  { plan with limit := none, offset := none, orders := [], loads := [] }

end Plan

end RestQuery
