import RestQuery.Json
import RestQuery.Sql.Value
import RestQuery.Word

/-!
# Keys of rows

Rows are tied together by the text of their keys, so that the number 7 and the text `7` are the same
key. Null, arrays and objects are no keys.
-/

namespace RestQuery

def keyText : Json → Option String
  | .text s => some s
  | .number n => some n.write
  | .bool b => some (if b then "true" else "false")
  | _ => none

/-- The value that is bound for a key; a whole number above the range becomes a double. -/
def keyValue : Json → Option Sql.Value
  | .text s => some (.text s)
  | .number (.int n) => some (if n < intBound then .int n else .double (.ofNat n.toNat))
  | .number (.double d) => some (.double d)
  | .bool b => some (.bool b)
  | _ => none

def keyAt (column : String) (row : Row) : Option String := (row.get? column).bind keyText

/-- The keys not seen before, in the order of their first occurrence. -/
def distinctFrom (seen : List String) : List Json → List Sql.Value
  | [] => []
  | value :: rest =>
    match keyText value, keyValue value with
    | some key, some bound =>
      if seen.contains key then distinctFrom seen rest
      else bound :: distinctFrom (key :: seen) rest
    | _, _ => distinctFrom seen rest

def distinctKeys (column : String) (rows : List Row) : List Sql.Value :=
  distinctFrom [] (rows.filterMap (·.get? column))

end RestQuery
