import RestQuery.Clause.Context
import RestQuery.Plan
import RestQuery.Text.Digits
import RestQuery.Word

/-!
# Pages of a collection

A page is given by `limit` and `offset`, or by `pageSize` and `page`, which counts from 1. Sizes
and numbers are whole numbers below `2 ^ 64`, offsets at most `2 ^ 63 - 1`; nothing wraps around.
-/

namespace RestQuery

structure PageClause where
  limit : Option Nat
  offset : Option Nat
  /-- Whether the offset was computed from a page number. -/
  pageDriven : Bool
deriving DecidableEq, Repr

namespace PageClause

def empty : PageClause := ⟨none, none, false⟩

def greatestOffset : Nat := intBound - 1

/-- Decimal digits after an optional plus sign. -/
def natOfChars (cs : List Char) : Option Nat :=
  let digits := match cs with
    | '+' :: rest => rest
    | _ => cs
  if digits ≠ [] ∧ digits.all Char.isDigit then
    some (Text.natOfDigits digits)
  else none

/-- The number that a parameter gives; `what` names it in the failure. -/
def number (what value : String) : Except Failure Nat :=
  match natOfChars (Text.trimChars value.toList) with
  | some n => if n < wordBound then .ok n else .error (.page (.notNumeric what value))
  | none => .error (.page (.notNumeric what value))

def sizeOf (ctx : Context) (ps : Parameters) : Except Failure Nat := do
  let size ← match ctx.param? ps ["limit", "pageSize"] with
    | some value => number "page size or limit" value
    | none => .ok ctx.settings.defaultPageSize
  if size > ctx.settings.maxPageSize then
    .error (.page (.sizeTooLarge ctx.settings.maxPageSize size))
  else .ok size

def pageNumber (value : String) : Except Failure Nat := do
  let page ← number "page" value
  if page = 0 then .error (.page .pageZero) else .ok page

def place (clause : PageClause) (size : Nat) (offset : Option Nat) : Gathered PageClause :=
  match offset with
  | some n =>
    if n > greatestOffset then .refuse clause (.page (.offsetTooLarge greatestOffset n))
    else .accept { clause with limit := some size, offset := some n }
  | none => .accept { clause with limit := some size, offset := none }

def read (ctx : Context) (ps : Parameters) (clause : PageClause) : Gathered PageClause :=
  match sizeOf ctx ps with
  | .error failure => .refuse clause failure
  | .ok size =>
    match ctx.param? ps ["offset"], ctx.param? ps ["page"] with
    | some value, _ =>
      match number "offset" value with
      | .error failure => .refuse clause failure
      | .ok offset => clause.place size (some offset)
    | none, some value =>
      match pageNumber value with
      | .error failure => .refuse clause failure
      | .ok page =>
        let clause := { clause with pageDriven := true }
        let offset := (page - 1) * size
        if offset < wordBound then clause.place size (some offset)
        else .refuse clause (.page (.pageOutOfRange page))
    | none, none => clause.place size none

def apply (clause : PageClause) (plan : Plan) : Plan :=
  match clause.limit with
  | some limit => { plan with limit := some limit, offset := clause.offset }
  | none => plan

end PageClause

end RestQuery
