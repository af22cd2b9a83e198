import RestQuery.Plan
import RestQuery.Schema
import RestQuery.Text.Pieces

/-!
# Cleaning rows

Loading adds relations that nobody asked for and columns that only tie rows together. Cleaning
removes both, following the relations of the schema through objects and arrays of objects. Owners of
polymorphic relations stay as they are.
-/

namespace RestQuery

/-- The columns that may stay, by relation path; the root rows have an entry of their own. -/
structure SelectedColumns where
  root : Option (List String)
  paths : Dict (List String)
deriving DecidableEq, Repr

namespace SelectedColumns

def empty : SelectedColumns := ⟨none, []⟩

def bareName (column : String) : String :=
  match Text.cutLast '.' column with
  | some (_, name) => name
  | none => column

/-- Restricts a path to columns; the latest restriction of a path counts. -/
def restrict (s : SelectedColumns) (path : String) (columns : List String) : SelectedColumns :=
  let names := columns.map bareName
  if path = rootPath then { s with root := some names }
  else { s with paths := s.paths.insert path names }

/-- The columns that may stay at a path, the empty path being the root. -/
def at? (s : SelectedColumns) (path : String) : Option (List String) :=
  if path = "" then s.root else s.paths.get? path

end SelectedColumns

structure Cleaner where
  schema : Schema
  /-- The relation paths that may stay; `none` keeps every relation. -/
  relations : Option (List String)
  /-- The restricted projections; `none` keeps every column. -/
  columns : Option SelectedColumns
  /-- A key that stays in the root rows. -/
  scoreColumn : String

namespace Cleaner

def pathBelow (path name : String) : String := if path = "" then name else path ++ "." ++ name

def keepsRelation (c : Cleaner) (path : String) : Bool :=
  match c.relations with
  | some kept => kept.contains path
  | none => true

def keepsColumn (c : Cleaner) (entity : Entity) (path key : String) : Bool :=
  match c.columns.bind (·.at? path) with
  | some kept =>
    kept.contains key || entity.isComputed key || (path == "" && key == c.scoreColumn)
  | none => true

def entityOf (c : Cleaner) (relation : Relation) : Option Entity :=
  if relation.kind = .morphTo then none else relation.related.bind c.schema.entity?

mutual

def cleanRow (c : Cleaner) (entity : Entity) (path : String) : List (String × Json) → Row
  | [] => []
  | (key, value) :: rest =>
    match entity.relation? key with
    | some relation =>
      let below := pathBelow path key
      if c.keepsRelation below then
        match c.entityOf relation with
        | some related => (key, c.cleanRelated related below value) :: c.cleanRow entity path rest
        | none => (key, value) :: c.cleanRow entity path rest
      else c.cleanRow entity path rest
    | none =>
      if c.keepsColumn entity path key then (key, value) :: c.cleanRow entity path rest
      else c.cleanRow entity path rest

def cleanRelated (c : Cleaner) (entity : Entity) (path : String) : Json → Json
  | .object fields => .object (c.cleanRow entity path fields)
  | .array items => .array (c.cleanItems entity path items)
  | value => value

def cleanItems (c : Cleaner) (entity : Entity) (path : String) : List Json → List Json
  | [] => []
  | item :: rest => c.cleanItem entity path item :: c.cleanItems entity path rest

/-- Cleans a row in an array; anything else in an array stays as it is. -/
def cleanItem (c : Cleaner) (entity : Entity) (path : String) : Json → Json
  | .object fields => .object (c.cleanRow entity path fields)
  | value => value

end

def cleanRows (c : Cleaner) (entity : Entity) (rows : List Row) : List Row :=
  rows.map (c.cleanRow entity "")

end Cleaner

end RestQuery
