import RestQuery.Failure
import RestQuery.Json
import RestQuery.Sql.Render
import RestQuery.Word

/-!
# Talking to a database

A database answers each statement with rows or a fault; its answer may depend on all statements
sent before. A run keeps the statements that were sent, also when it fails: the first fault ends it.
-/

namespace RestQuery

open Sql

inductive Answer where
  | rows (rows : List Row)
  | fault (fault : DatabaseFault)
deriving Repr

/-- The answer to the last of the statements sent so far. -/
abbrev Database := List Statement → Answer

abbrev Run := ExceptT Failure (StateM (List Statement))

namespace Database

/-- The database whose answers are listed in the order of the statements, and that answers nothing
after them. -/
def replaying (answers : List Answer) : Database := fun sent =>
  answers[sent.length - 1]?.getD (.fault .unanswered)

def ask (db : Database) (statement : Statement) : Run (List Row) := do
  let sent ← get
  let sent := sent ++ [statement]
  set sent
  match db sent with
  | .rows rows => return rows
  | .fault fault => throw fault.onStatement

/-- The count in the first row of an answer; no row counts as 0, and so does a negative count. -/
def countOfRows : List Row → Except Failure Nat
  | [] => .ok 0
  | row :: _ =>
    match row.get? countAlias with
    | some (.number (.int n)) =>
      if n < intBound then .ok n.toNat else .error (.database .unreadableCount)
    | _ => .error (.database .unreadableCount)

def count (db : Database) (statement : Statement) : Run Nat := do
  let rows ← db.ask statement
  match countOfRows rows with
  | .ok n => return n
  | .error failure => throw failure

end Database

end RestQuery
