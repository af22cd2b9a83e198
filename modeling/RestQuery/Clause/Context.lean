import RestQuery.Filter
import RestQuery.Parameters
import RestQuery.Schema

/-!
# Reading clauses of a request

A clause is what one family of query parameters asks for. Reading a clause adds to what earlier
readings gathered, item by item, and stops at the first item that is refused; what was gathered
before stays. A clause is read as a whole before anything of it is applied to a plan.
-/

namespace RestQuery

structure Context where
  settings : Settings
  /-- The lists of the settings, with those of the entity in their place. -/
  allow : AllowLists
  schema : Schema
  entity : Entity
  filters : Registry

/-- The value of a reserved parameter that has several names, the first present one counting. -/
def Context.param? (ctx : Context) (ps : Parameters) (names : List String) : Option String :=
  names.findSome? fun name => ps.get? (ctx.settings.param name)

/-- What was gathered, and the failure that stopped the gathering. -/
structure Gathered (σ : Type) where
  state : σ
  refusal : Option Failure
deriving Repr

namespace Gathered

variable {σ α : Type}

def accept (state : σ) : Gathered σ := ⟨state, none⟩

def refuse (state : σ) (failure : Failure) : Gathered σ := ⟨state, some failure⟩

def toExcept (g : Gathered σ) : Except Failure σ :=
  match g.refusal with
  | none => .ok g.state
  | some failure => .error failure

end Gathered

def gather {σ α : Type} (take : σ → α → Gathered σ) : σ → List α → Gathered σ
  | state, [] => .accept state
  | state, item :: rest =>
    match take state item with
    | ⟨next, none⟩ => gather take next rest
    | ⟨next, some failure⟩ => .refuse next failure

end RestQuery
