import RestQuery.Database
import RestQuery.Load.Step
import RestQuery.Load.Stitch
import RestQuery.Sql.OfPlan

/-!
# Loading relations

Each step of a load sends one statement for all rows of its level, loads the steps below it on the
related rows, and attaches these. A step without any key sends nothing. Computed fields are
evaluated when all relations of a row are in place.
-/

namespace RestQuery

open Sql

namespace Load

/-- Loads on the rows of one level, if there are any, and then computes their fields. -/
def level (entity : Entity) (load : List Row → Run (List Row)) (rows : List Row) :
    Run (List Row) :=
  if rows.isEmpty then return rows
  else do
    let rows ← load rows
    return rows.map entity.compute

structure Typed where
  typeValue : Option String
  row : Row

def loadOwnersOf (db : Database) (schema : Schema) (name : String) (relation : Relation)
    (load : EagerLoad) (rows : List Typed) (typeValue : String) : Run (List Typed) :=
  match schema.morph? typeValue with
  | none => return rows
  | some target =>
    let named := (rows.filter (·.typeValue = some typeValue)).map Typed.row
    let keys := distinctKeys relation.foreignKey named
    if keys.isEmpty then return rows
    else do
      let found ← db.ask (.ofRelation relation target load keys)
      let owners := Stitch.owners relation.localKey (found.map target.compute)
      return rows.map fun typed =>
        if typed.typeValue = some typeValue then
          { typed with row := Stitch.attachOwner owners name relation.foreignKey typed.row }
        else typed

def typeValueAt (typeColumn : String) (row : Row) : Option String :=
  match row.get? typeColumn with
  | some (.text s) => some s
  | _ => none

/-- The types named by the rows, in order, each once. -/
def typesOf (rows : List Typed) : List String :=
  (Dict.ofList (rows.filterMap fun typed => typed.typeValue.map fun t => (t, ()))).keys

/-- Attaches to every row its owner, or null, with one statement for each type. -/
def loadOwners (db : Database) (schema : Schema) (name typeColumn : String) (relation : Relation)
    (load : EagerLoad) (rows : List Row) : Run (List Row) := do
  let typed := rows.map fun row => Typed.mk (typeValueAt typeColumn row) (row.insert name .null)
  let typed ← (typesOf typed).foldlM (loadOwnersOf db schema name relation load) typed
  return typed.map Typed.row

mutual

def runStep (db : Database) (schema : Schema) : LoadStep → List Row → Run (List Row)
  | .fail _ failure, _ => throw failure
  | .owner _ name typeColumn relation load, rows =>
    loadOwners db schema name typeColumn relation load rows
  | .related _ name parentColumn relation entity load steps, rows =>
    let toMany := relation.kind.isToMany
    let keys := distinctKeys parentColumn rows
    if keys.isEmpty then
      return Stitch.attach rows [] name parentColumn Relation.pivotAlias toMany
    else do
      let children ← db.ask (.ofRelation relation entity load keys)
      let children ← level entity (runSteps db schema steps) children
      return Stitch.attach rows children name parentColumn relation.relatedJoinColumn toMany

def runSteps (db : Database) (schema : Schema) : List LoadStep → List Row → Run (List Row)
  | [], rows => return rows
  | step :: rest, rows => do
    let rows ← runStep db schema step rows
    runSteps db schema rest rows

end

def run (db : Database) (schema : Schema) (loads : Dict EagerLoad) (entity : Entity)
    (rows : List Row) : Run (List Row) :=
  level entity (runSteps db schema (LoadStep.ofLoads schema loads entity)) rows

end Load

end RestQuery
