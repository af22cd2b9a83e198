import RestQuery.Dict
import RestQuery.Predicate
import RestQuery.Text.Pieces
import RestQuery.Text.Shown

/-!
# Filter strategies

A strategy turns a column and a raw value into a predicate. `|` separates alternatives in the value,
which a negated strategy joins with "and" and all others with "or". A registry knows strategies by
their suffix; a path is cut before its longest registered suffix.
-/

namespace RestQuery

inductive Combinator where
  | or
  | and
deriving DecidableEq, Repr

structure Strategy where
  predicate : (column value : String) → Predicate
  combinator : Combinator

namespace Like

/-- The pattern text of a literal character; the escape character is the backslash. -/
def escapeChar (c : Char) : List Char :=
  if c = '\\' ∨ c = '%' ∨ c = '_' then ['\\', c] else [c]

def escape (s : String) : String := String.ofList (s.toList.flatMap escapeChar)

/-- The pattern of a glob in which `*` is any run of characters. -/
def ofGlob (s : String) : String :=
  String.ofList (s.toList.flatMap fun c => if c = '*' then ['%'] else escapeChar c)

end Like

namespace Strategy

def isNullWord (value : String) : Bool := value.toList.map Char.toLower == ['n', 'u', 'l', 'l']

def equal : Strategy where
  predicate column value :=
    if isNullWord value then .isNull column false else .compare column .eq value
  combinator := .or

def notEqual : Strategy where
  predicate column value :=
    if isNullWord value then .isNull column true else .compare column .ne value
  combinator := .and

def like (negated : Bool) : Strategy where
  predicate column value := .like column (Like.ofGlob value) negated (some '\\')
  combinator := if negated then .and else .or

/-- Membership in a comma-separated list. Nothing is in the empty list. -/
def isIn (negated : Bool) : Strategy where
  predicate column value :=
    match Text.listed value with
    | [] => if negated then .always else .never
    | literals => .isIn column literals negated
  combinator := if negated then .and else .or

def compare (op : Comparison) : Strategy where
  predicate column value := .compare column op value
  combinator := .or

def build (strategy : Strategy) (column raw : String) : Predicate :=
  match (Text.pieces '|' raw).map (strategy.predicate column) with
  | [alternative] => alternative
  | alternatives =>
    match strategy.combinator with
    | .or => .any alternatives
    | .and => .all alternatives

end Strategy

/-- Strategies by suffix; the empty suffix stands for a filter without one. -/
structure Registry where
  strategies : Dict Strategy

namespace Registry

def empty : Registry := ⟨[]⟩

def register (registry : Registry) (suffix : String) (strategy : Strategy) : Registry :=
  ⟨registry.strategies.insert suffix strategy⟩

def default : Registry :=
  ⟨Dict.ofList [("", .equal), ("not", .notEqual), ("lk", .like false), ("not-lk", .like true),
    ("in", .isIn false), ("not-in", .isIn true), ("st", .compare .lt), ("gt", .compare .gt),
    ("min", .compare .ge), ("max", .compare .le)]⟩

/-- The word `default` names the empty suffix. -/
def resolve (registry : Registry) (suffix : String) : Option Strategy :=
  registry.strategies.get? (if suffix = "default" then "" else suffix)

def columnBefore (path suffix : String) : Option String :=
  if suffix = "" then none
  else
    match (Text.stripEnding suffix path).bind (Text.stripEnding "-") with
    | some column => if column = "" then none else some column
    | none => none

def longer (best : Option (String × String)) (next : String × String) : Option (String × String) :=
  match best with
  | some cut => if cut.2.length < next.2.length then some next else some cut
  | none => some next

/-- Cuts a path before its longest registered suffix. Without one the suffix is empty. -/
def splitSuffix (registry : Registry) (path : String) : String × String :=
  let cuts := registry.strategies.keys.filterMap fun suffix =>
    (columnBefore path suffix).map fun column => (column, suffix)
  (cuts.foldl longer none).getD (path, "")

def describe (registry : Registry) : String :=
  "FilterRegistry \x7b suffixes: [" ++
    ", ".intercalate (registry.strategies.keys.map Text.shown) ++ "] \x7d"

end Registry

end RestQuery
