import RestQuery.Predicate
import RestQuery.Sql.Value

/-!
# Statements

The statements that are sent to a database: a select from one table, possibly joined with a second
one, and the count of the rows of such a select. A condition is a tree of groups over leaves; a
group of one member, put into another group, gives way to its member.
-/

namespace RestQuery.Sql

structure ColumnRef where
  table : String
  column : String
deriving DecidableEq, Repr

/-- The column that a name means: the part before the first dot is a table; a name without a dot
belongs to the given table. -/
def ColumnRef.resolve (table column : String) : ColumnRef :=
  match Text.cutFirst '.' column with
  | some (table, column) => ⟨table, column⟩
  | none => ⟨table, column⟩

inductive Leaf where
  | compare (column : ColumnRef) (op : Comparison) (value : Value)
  | isNull (column : ColumnRef) (negated : Bool)
  | like (column : ColumnRef) (pattern : String) (negated : Bool) (escape : Option Char)
  | isIn (column : ColumnRef) (values : List Value) (negated : Bool)
  | fullText (columns : List ColumnRef) (term : String)
  /-- A comparison of two numbers that always or never holds. -/
  | constant (holds : Bool)
deriving DecidableEq, Repr

inductive Condition where
  | leaf (l : Leaf)
  | any (parts : List Condition)
  | all (parts : List Condition)
deriving Repr, Inhabited

def Condition.asMember : Condition → Condition
  | any [c] => c
  | all [c] => c
  | c => c

inductive Item where
  | everyColumn (table : String)
  | column (ref : ColumnRef)
  | labelled (ref : ColumnRef) (label : String)
  | score (columns : List ColumnRef) (term label : String)
deriving DecidableEq, Repr

structure Join where
  table : String
  left : ColumnRef
  right : ColumnRef
deriving DecidableEq, Repr

inductive OrderTarget where
  | column (ref : ColumnRef)
  | label (name : String)
deriving DecidableEq, Repr

structure Select where
  items : List Item
  table : String
  join : Option Join
  conditions : List Condition
  orders : List (OrderTarget × Bool)
  limit : Option Nat
  offset : Option Nat
deriving Repr

inductive Statement where
  | select (s : Select)
  | count (s : Select)
deriving Repr

end RestQuery.Sql
