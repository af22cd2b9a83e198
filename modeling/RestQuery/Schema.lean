import RestQuery.Json
import RestQuery.Relation
import RestQuery.Settings

/-!
# Schemas

A schema registers entities by name, and the entities that stored type values of polymorphic
relations refer to. An entity is a table with its relations, the relations that every request
loads, and fields computed from a finished row.
-/

namespace RestQuery

structure Entity where
  name : String
  table : String
  primaryKey : String
  relations : Dict Relation
  /-- Relation paths that are loaded with every row. -/
  defaults : List String
  computed : List (String × (Row → Json))
  allow : Option AllowOverride

namespace Entity

def ofTable (name table : String) : Entity := ⟨name, table, "id", [], [], [], none⟩

def addRelation (entity : Entity) (name : String) (relation : Relation) : Entity :=
  { entity with relations := entity.relations.insert name relation }

def relation? (entity : Entity) (name : String) : Option Relation := entity.relations.get? name

def isRelation (entity : Entity) (name : String) : Bool := entity.relations.contains name

def isComputed (entity : Entity) (name : String) : Bool :=
  entity.computed.any fun field => field.1 == name

def qualified (entity : Entity) (column : String) : String := entity.table ++ "." ++ column

/-- Evaluates the computed fields, each of which sees those before it. -/
def compute (entity : Entity) (row : Row) : Row :=
  entity.computed.foldl (fun row (name, field) => row.insert name (field row)) row

end Entity

structure Schema where
  entities : Dict Entity
  /-- Entity names by stored type value. -/
  morphs : Dict String

namespace Schema

def empty : Schema := ⟨[], []⟩

def add (schema : Schema) (entity : Entity) : Schema :=
  { schema with entities := schema.entities.insert entity.name entity }

def addMorph (schema : Schema) (typeValue entity : String) : Schema :=
  { schema with morphs := schema.morphs.insert typeValue entity }

def entity? (schema : Schema) (name : String) : Option Entity := schema.entities.get? name

/-- The entity that a type value refers to; a value that is not registered is itself a name. -/
def morph? (schema : Schema) (typeValue : String) : Option Entity :=
  schema.entity? ((schema.morphs.get? typeValue).getD typeValue)

end Schema

end RestQuery
