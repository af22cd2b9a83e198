import RestQuery.Double.Decimal
import RestQuery.Text.Digits
import RestQuery.Text.Pieces
import RestQuery.Word

/-!
# Values bound to statements

A raw literal is bound as a number or a truth value if it is written in the one canonical way, so
that `007` stays text. The grammar of decimals has a whole part without superfluous zeros and at
least one place after the point.
-/

namespace RestQuery.Sql

inductive Value where
  /-- A whole number from `- 2 ^ 63` to `2 ^ 63 - 1`. -/
  | int (value : Int)
  /-- A limit or an offset, below `2 ^ 64`. -/
  | count (value : Nat)
  /-- A constant of the statement itself. -/
  | small (value : Nat)
  | double (value : Double)
  | bool (value : Bool)
  | text (value : String)
deriving DecidableEq, Repr

def cutSign : List Char → Bool × List Char
  | '-' :: rest => (true, rest)
  | cs => (false, cs)

def canonicalInt (cs : List Char) : Option Int :=
  let (negative, ds) := cutSign cs
  if Text.isWhole ds then
    let n := Text.natOfDigits ds
    if negative then if 0 < n ∧ n ≤ intBound then some (-n) else none
    else if n < intBound then some n else none
  else none

def decimal (cs : List Char) : Option Double :=
  let (negative, rest) := cutSign cs
  match Text.splitWhere (· == '.') rest with
  | [whole, places] =>
    if Text.isWhole whole ∧ places ≠ [] ∧ places.all Char.isDigit then
      some (.ofScientific negative (Text.natOfDigits (whole ++ places)) (-(places.length : Int)))
    else none
  | _ => none

def Value.ofLiteral (raw : String) : Value :=
  match canonicalInt raw.toList, decimal raw.toList with
  | some n, _ => .int n
  | none, some d => .double d
  | none, none =>
    if raw = "true" then .bool true
    else if raw = "false" then .bool false
    else .text raw

end RestQuery.Sql
