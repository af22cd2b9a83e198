import RestQuery.Urlencoded

/-!
# Query parameters of a request

The parameters keep the order in which their keys first occur. A key that is given again takes
its new value and keeps its place.
-/

namespace RestQuery

/-- Ordered pairs of keys and values; built by `insert`, so no key stands twice. -/
structure Parameters where
  pairs : List (String × String)
deriving DecidableEq, Repr

namespace Parameters

def empty : Parameters := ⟨[]⟩

/-- Replaces the value of a key in place, or puts a new key last. -/
def insertPair : List (String × String) → String → String → List (String × String)
  | [], key, value => [(key, value)]
  | (k, v) :: rest, key, value =>
    if k = key then (k, value) :: rest else (k, v) :: insertPair rest key value

def insert (ps : Parameters) (key value : String) : Parameters := ⟨insertPair ps.pairs key value⟩

def ofPairs (pairs : List (String × String)) : Parameters :=
  pairs.foldl (fun ps (key, value) => ps.insert key value) empty

def ofQuery (query : String) : Parameters := ofPairs (Urlencoded.decode query)

/-- The query of a request target: what stands between its first `?` and a fragment. -/
def queryOfTarget (target : String) : String :=
  let beforeFragment := target.toList.takeWhile (· ≠ '#')
  match Text.cutFirstChars '?' beforeFragment with
  | some (_, query) => String.ofList query
  | none => ""

def ofTarget (target : String) : Parameters := ofQuery (queryOfTarget target)

def get? (ps : Parameters) (key : String) : Option String := ps.pairs.lookup key

def contains (ps : Parameters) (key : String) : Bool := (ps.get? key).isSome

def isEmpty (ps : Parameters) : Bool := ps.pairs.isEmpty

def toQuery (ps : Parameters) (excluded : List String) : String :=
  Urlencoded.encode (ps.pairs.filter fun pair => !excluded.contains pair.1)

end Parameters

end RestQuery
