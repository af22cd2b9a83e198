import RestQuery.Load.Key
import RestQuery.Relation

/-!
# Attaching related rows

Related rows are grouped by the key of their parent; then every row receives the group of its own
key, as an array or, for a relation to one, its first member. The projected pivot key is removed on
the way.
-/

namespace RestQuery

namespace Stitch

def detached (childColumn : String) (child : Row) : Row :=
  if childColumn = Relation.pivotAlias then child.erase Relation.pivotAlias else child

/-- Adds a related row to the group of its key; a row without a key belongs to none. -/
def addChild (childColumn : String) (groups : Dict (List Json)) (child : Row) :
    Dict (List Json) :=
  match keyAt childColumn child with
  | some key => groups.update key [] (· ++ [.object (detached childColumn child)])
  | none => groups

def groups (childColumn : String) (children : List Row) : Dict (List Json) :=
  children.foldl (addChild childColumn) []

def shown (toMany : Bool) (children : List Json) : Json :=
  if toMany then .array children else children.head?.getD .null

def attach (rows children : List Row) (name parentColumn childColumn : String) (toMany : Bool) :
    List Row :=
  let groups := groups childColumn children
  rows.map fun row =>
    let matched := ((keyAt parentColumn row).bind groups.get?).getD []
    row.insert name (shown toMany matched)

/-- Owners by key; of two with the same key the later one counts. -/
def owners (ownerColumn : String) (rows : List Row) : Dict Row :=
  rows.foldl
    (fun owners row =>
      match keyAt ownerColumn row with
      | some key => owners.insert key row
      | none => owners)
    []

def attachOwner (owners : Dict Row) (name idColumn : String) (row : Row) : Row :=
  match (keyAt idColumn row).bind owners.get? with
  | some owner => row.insert name (.object owner)
  | none => row

end Stitch

end RestQuery
