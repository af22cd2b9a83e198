/-!
# Predicates on rows

A predicate says which rows are wanted, independent of any database. Columns are names as written
in the request or the schema, bare or with a table; literals are still text.
-/

namespace RestQuery

inductive Comparison where
  | eq
  | ne
  | lt
  | gt
  | le
  | ge
deriving DecidableEq, Repr

inductive Predicate where
  | compare (column : String) (op : Comparison) (literal : String)
  | isNull (column : String) (negated : Bool)
  /-- `%` stands for any run, `_` for one character; the escape character makes the next one
  literal. -/
  | like (column pattern : String) (negated : Bool) (escape : Option Char)
  | isIn (column : String) (literals : List String) (negated : Bool)
  /-- Full-text relevance of the columns to the term. -/
  | search (columns : List String) (term : String)
  | any (parts : List Predicate)
  | all (parts : List Predicate)
  | always
  | never
deriving Repr, Inhabited

end RestQuery
