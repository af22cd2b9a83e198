import RestQuery.Sql.Clausal
import RestQuery.Sql.Template

/-!
# The text of statements

A statement is first written as tokens. From the tokens come the text with placeholders, the values
bound to these in order, and the text with the values inlined; so all three agree on the structure.
-/

namespace RestQuery.Sql

inductive Dialect where
  | sqlite
  | mysql
  | postgres
deriving DecidableEq, Repr

inductive Token where
  | raw (text : String)
  | name (identifier : String)
  | bound (value : Value)
  /-- A string that is always inlined. -/
  | literal (text : String)
deriving DecidableEq, Repr

/-! ### Tokens of statements -/

def symbolOf : Comparison → String
  | .eq => "="
  | .ne => "<>"
  | .lt => "<"
  | .gt => ">"
  | .le => "<="
  | .ge => ">="

def ColumnRef.tokens (ref : ColumnRef) : List Token := [.name ref.table, .raw ".", .name ref.column]

def commaSeparated : List (List Token) → List Token
  | [] => []
  | [tokens] => tokens
  | tokens :: next :: rest => tokens ++ .raw ", " :: commaSeparated (next :: rest)

/-- An identifier in backticks, whatever the dialect. -/
def backticked (identifier : String) : List Char :=
  '\x60' :: (identifier.toList.flatMap (fun c => if c = '\x60' then [c, c] else [c]) ++ ['\x60'])

def backtickedRef (ref : ColumnRef) : List Char :=
  backticked ref.table ++ '.' :: backticked ref.column

def fullTextTemplate (columns : List ColumnRef) : List Char :=
  "MATCH (".toList ++ ([',', ' '].intercalate (columns.map backtickedRef)) ++
    ") AGAINST (? IN BOOLEAN MODE)".toList

def Dialect.mark : Dialect → Template.Mark
  | postgres => ⟨'$', true⟩
  | _ => ⟨'?', false⟩

/-- A template with values at its marks; a mark for which there is no value is left out. -/
def fillTemplate (dialect : Dialect) (template : List Char) (values : List Value) : List Token :=
  (Template.segments dialect.mark template).filterMap fun
    | .text content => some (.raw (String.ofList content))
    | .value index => values[index]?.map .bound

/-- The full-text expression. The same template serves all dialects, so its `?` is plain text where
places are marked with `$`. -/
def fullTextTokens (dialect : Dialect) (columns : List ColumnRef) (term : String) : List Token :=
  fillTemplate dialect (fullTextTemplate columns) [.text term]

/-- The escape character as a statement names it: the character of its lowest octet. -/
def escapeName (c : Char) : String := String.singleton (Char.ofNat (c.toNat % 256))

def Leaf.tokens (dialect : Dialect) : Leaf → List Token
  | compare ref op value => ref.tokens ++ [.raw (" " ++ symbolOf op ++ " "), .bound value]
  | isNull ref negated => ref.tokens ++ [.raw (if negated then " IS NOT NULL" else " IS NULL")]
  | like ref pattern negated escape =>
    ref.tokens ++ [.raw (if negated then " NOT LIKE " else " LIKE "), .bound (.text pattern)] ++
      match escape with
      | some c => [.raw " ESCAPE ", .literal (escapeName c)]
      | none => []
  | isIn _ [] negated =>
    [.bound (.small 1), .raw " = ", .bound (.small (if negated then 1 else 2))]
  | isIn ref (value :: values) negated =>
    ref.tokens ++ [.raw (if negated then " NOT IN (" else " IN (")] ++
      commaSeparated ((value :: values).map fun value => [.bound value]) ++ [.raw ")"]
  | fullText columns term => fullTextTokens dialect columns term
  | constant holds => [.raw (if holds then "1 = 1" else "0 = 1")]

def Piece.tokens (dialect : Dialect) : Piece → List Token
  | leaf l => l.tokens dialect
  | truth holds => [.raw (if holds then "TRUE" else "FALSE")]
  | and => [.raw " AND "]
  | or => [.raw " OR "]
  | opening => [.raw "("]
  | closing => [.raw ")"]

def Condition.tokens (dialect : Dialect) (c : Condition) : List Token :=
  c.pieces.flatMap (Piece.tokens dialect)

def Item.tokens (dialect : Dialect) : Item → List Token
  | everyColumn table => [.name table, .raw ".*"]
  | column ref => ref.tokens
  | labelled ref label => ref.tokens ++ [.raw " AS ", .name label]
  | score columns term label =>
    fullTextTokens dialect columns term ++ [.raw " AS ", .name label]

def Join.tokens (join : Join) : List Token :=
  [.raw " INNER JOIN ", .name join.table, .raw " ON "] ++ join.left.tokens ++ [.raw " = "] ++
    join.right.tokens

def orderTokens (order : OrderTarget × Bool) : List Token :=
  (match order.1 with
    | .column ref => ref.tokens
    | .label name => [.name name]) ++ [.raw (if order.2 then " DESC" else " ASC")]

def whereTokens (dialect : Dialect) (conditions : List Condition) : List Token :=
  if conditions.isEmpty then []
  else .raw " WHERE " :: (Condition.all conditions).tokens dialect

def orderByTokens (orders : List (OrderTarget × Bool)) : List Token :=
  if orders.isEmpty then [] else .raw " ORDER BY " :: commaSeparated (orders.map orderTokens)

def countTokens (keyword : String) (number : Option Nat) : List Token :=
  match number with
  | some n => [.raw keyword, .bound (.count n)]
  | none => []

def Select.tokens (dialect : Dialect) (s : Select) : List Token :=
  .raw "SELECT " :: (commaSeparated (s.items.map (Item.tokens dialect)) ++
    [.raw " FROM ", .name s.table] ++
    (match s.join with
      | some join => join.tokens
      | none => []) ++
    whereTokens dialect s.conditions ++
    orderByTokens s.orders ++
    countTokens " LIMIT " s.limit ++
    countTokens " OFFSET " s.offset)

def countAlias : String := "aggregate"

def Statement.tokens (dialect : Dialect) : Statement → List Token
  | select s => s.tokens dialect
  | count s =>
    [.raw "SELECT COUNT(*) AS ", .name countAlias, .raw " FROM ("] ++ s.tokens dialect ++
      [.raw ") AS ", .name "count_table"]

/-! ### Text of tokens -/

/-- A quoted identifier; the quote is doubled inside. -/
def quoteName (dialect : Dialect) (identifier : String) : List Char :=
  let quote := match dialect with
    | .mysql => '\x60'
    | _ => '"'
  quote :: (identifier.toList.flatMap (fun c => if c = quote then [c, c] else [c]) ++ [quote])

/-- A character of an inlined string in the dialects that escape with a backslash. -/
def escapeChar (c : Char) : List Char :=
  if c = '\\' ∨ c = '"' ∨ c = '\x27' then ['\\', c]
  else if c.toNat = 0 then ['\\', '0']
  else if c.toNat = 8 then ['\\', 'b']
  else if c.toNat = 9 then ['\\', 't']
  else if c.toNat = 10 then ['\\', 'n']
  else if c.toNat = 13 then ['\\', 'r']
  else if c.toNat = 26 then ['\\', 'z']
  else [c]

def quoteText (dialect : Dialect) (s : String) : List Char :=
  match dialect with
  | .sqlite =>
    '\x27' :: (s.toList.flatMap (fun c => if c = '\x27' then [c, c] else [c]) ++ ['\x27'])
  | .mysql => '\x27' :: (s.toList.flatMap escapeChar ++ ['\x27'])
  | .postgres =>
    let escaped := s.toList.flatMap escapeChar
    let quoted := '\x27' :: (escaped ++ ['\x27'])
    if escaped.contains '\\' then 'E' :: quoted else quoted

def Value.plain : Value → String
  | int n => toString n
  | count n => toString n
  | small n => toString n
  | double d => d.positional
  | bool b => if b then "TRUE" else "FALSE"
  | text s => s

def Value.inlined (dialect : Dialect) : Value → List Char
  | text s => quoteText dialect s
  | value => value.plain.toList

/-- The `n`-th placeholder, counted from 1. -/
def placeholder (dialect : Dialect) (n : Nat) : List Char :=
  match dialect with
  | .postgres => '$' :: (toString n).toList
  | _ => ['?']

/-- The text with placeholders, the next of which is the `n`-th. -/
def parameterized (dialect : Dialect) : Nat → List Token → List Char
  | _, [] => []
  | n, .raw text :: rest => text.toList ++ parameterized dialect n rest
  | n, .name identifier :: rest => quoteName dialect identifier ++ parameterized dialect n rest
  | n, .bound _ :: rest => placeholder dialect n ++ parameterized dialect (n + 1) rest
  | n, .literal text :: rest => quoteText dialect text ++ parameterized dialect n rest

def inlined (dialect : Dialect) (tokens : List Token) : List Char :=
  tokens.flatMap fun
    | .raw text => text.toList
    | .name identifier => quoteName dialect identifier
    | .bound value => value.inlined dialect
    | .literal text => quoteText dialect text

def boundValues (tokens : List Token) : List Value :=
  tokens.filterMap fun
    | .bound value => some value
    | _ => none

namespace Statement

def sql (dialect : Dialect) (s : Statement) : String :=
  String.ofList (parameterized dialect 1 (s.tokens dialect))

def values (dialect : Dialect) (s : Statement) : List Value := boundValues (s.tokens dialect)

def inline (dialect : Dialect) (s : Statement) : String :=
  String.ofList (inlined dialect (s.tokens dialect))

end Statement

end RestQuery.Sql
