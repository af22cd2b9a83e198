import RestQuery.Plan
import RestQuery.Schema
import RestQuery.Sql.Statement

/-!
# Statements of plans

A plan becomes the select of its root rows or the count of them; each eager load becomes one select
of related rows for a list of parent keys. Bare columns belong to the table of their scope. The
score is the exception: it is projected under its name and sorted by that name.
-/

namespace RestQuery

namespace Predicate

open Sql

mutual

def condition (table : String) : Predicate → Condition
  | compare column op literal =>
    .leaf (.compare (.resolve table column) op (.ofLiteral literal))
  | isNull column negated => .leaf (.isNull (.resolve table column) negated)
  | like column pattern negated escape =>
    .leaf (.like (.resolve table column) pattern negated escape)
  | isIn column literals negated =>
    .leaf (.isIn (.resolve table column) (literals.map .ofLiteral) negated)
  | search columns term => .leaf (.fullText (columns.map (.resolve table)) term)
  | any parts => .any (conditions table parts)
  | all parts => .all (conditions table parts)
  | always => .leaf (.constant true)
  | never => .leaf (.constant false)

def conditions (table : String) : List Predicate → List Condition
  | [] => []
  | p :: rest => (condition table p).asMember :: conditions table rest

end

end Predicate

namespace Sql

def orderTarget (table : String) (score : Option Score) (column : String) : OrderTarget :=
  match score with
  | some score =>
    if score.label = column then .label score.label else .column (.resolve table column)
  | none => .column (.resolve table column)

def ordersOf (table : String) (score : Option Score) (orders : List Order) :
    List (OrderTarget × Bool) :=
  orders.map fun order => (orderTarget table score order.column, order.descending)

def scoreItem (table : String) (score : Score) : Item :=
  .score (score.columns.map (.resolve table)) score.term score.label

def columnItem (table : String) (score : Option Score) (column : String) : Item :=
  match score with
  | some score => if score.label = column then scoreItem table score
    else .column (.resolve table column)
  | none => .column (.resolve table column)

/-- The projection: every column or the named ones. The score stands where its name does, or else
at the end. -/
def projection (table : String) (columns : List String) (score : Option Score) : List Item :=
  let shown :=
    if columns.isEmpty then [.everyColumn table] else columns.map (columnItem table score)
  match score with
  | some score => if columns.contains score.label then shown else shown ++ [scoreItem table score]
  | none => shown

def selectOf (plan : Plan) : Select where
  items := projection plan.table plan.select plan.score
  table := plan.table
  join := none
  conditions := Predicate.conditions plan.table plan.predicates
  orders := ordersOf plan.table plan.score plan.orders
  limit := plan.limit
  offset := plan.offset

def Statement.ofPlan (plan : Plan) : Statement := .select (selectOf plan)

/-- The count of the root rows, without regard to page, order and loads. -/
def Statement.countOf (plan : Plan) : Statement := .count (selectOf plan.forCount)

/-- How the rows of a relation are tied to their parents: a projected key and a join, if the key is
not in the related table, and the conditions on it. -/
structure Tie where
  keyItem : Option Item
  join : Option Join
  conditions : List Condition

def Tie.none : Tie := ⟨.none, .none, []⟩

def isOneOf (ref : ColumnRef) (keys : List Value) : Condition := .leaf (.isIn ref keys false)

def equalsText (ref : ColumnRef) (text : String) : Condition :=
  .leaf (.compare ref .eq (.text text))

def tieThrough (table parentKey joinKey : String) (related : ColumnRef) (keys : List Value)
    (more : List Condition) : Tie :=
  let key := ColumnRef.resolve table parentKey
  ⟨some (.labelled key Relation.pivotAlias), some ⟨table, .resolve table joinKey, related⟩,
    isOneOf key keys :: more⟩

def tieOf (relation : Relation) (related : Entity) (keys : List Value) : Tie :=
  let here := ColumnRef.resolve related.table
  match relation.kind with
  | .hasOne => ⟨none, none, [isOneOf (here relation.foreignKey) keys]⟩
  | .hasMany => ⟨none, none, [isOneOf (here relation.foreignKey) keys]⟩
  | .belongsTo => ⟨none, none, [isOneOf (here relation.localKey) keys]⟩
  | .morphTo => ⟨none, none, [isOneOf (here relation.localKey) keys]⟩
  | .morphMany =>
    let typed := match relation.typeColumn, relation.typeValue with
      | some column, some value => [equalsText (here column) value]
      | _, _ => []
    ⟨none, none, isOneOf (here relation.foreignKey) keys :: typed⟩
  | .hasManyThrough =>
    match relation.through with
    | some through =>
      tieThrough through.table through.firstKey through.secondLocalKey (here relation.foreignKey)
        keys []
    | none => .none
  | _ =>
    match relation.pivot with
    | some pivot =>
      tieThrough pivot.table pivot.parentKey pivot.relatedKey (here related.primaryKey) keys
        (match pivot.morph with
          | some (column, value) => [equalsText (.resolve pivot.table column) value]
          | none => [])
    | none => .none

def relationSelect (relation : Relation) (related : Entity) (load : EagerLoad)
    (keys : List Value) : Select :=
  let tie := tieOf relation related keys
  { items := projection related.table (load.columns.getD []) none ++ tie.keyItem.toList
    table := related.table
    join := tie.join
    conditions := tie.conditions ++ Predicate.conditions related.table load.predicates
    orders := ordersOf related.table none load.orders
    limit := none
    offset := none }

def Statement.ofRelation (relation : Relation) (related : Entity) (load : EagerLoad)
    (keys : List Value) : Statement :=
  .select (relationSelect relation related load keys)

end Sql

end RestQuery
