import RestQuery.Json.Document
import RestQuery.Settings

/-!
# Settings documents

Settings are written as a JSON object. Absent members keep their defaults and unknown ones are
ignored; a member that stands twice, or whose value has another type, makes the document invalid.
A record may also be written as the array of its values in the order of its fields, and a choice as
an object whose only member is the name of the choice with the value `null`.
-/

namespace RestQuery

namespace Document

/-- The values of the named members: for each name its value, if there is one. Fails if a member
stands twice, a key is not text or an array holds too many values. -/
def record (names : List String) : Document → Option (List (Option Document))
  | object members =>
    if members.all (·.1.isSome) &&
        names.all fun name => (members.filter (·.1 == some name)).length ≤ 1 then
      some (names.map fun name => List.lookup (some name) members)
    else none
  | array items =>
    if items.length ≤ names.length then
      some ((items.map some) ++ List.replicate (names.length - items.length) none)
    else none
  | _ => none

def member {α : Type} (values : List (Option Document)) (index : Nat) (fallback : α)
    (read : Document → Option α) : Option α :=
  match values[index]? with
  | some (some value) => read value
  | _ => some fallback

def asText : Document → Option String
  | text content => content
  | _ => none

def asBool : Document → Option Bool
  | bool value => some value
  | _ => none

def asNatBelow (bound : Nat) : Document → Option Nat
  | number l => l.nat?.filter fun n => !l.negative && n < bound
  | _ => none

def asTexts : Document → Option (List String)
  | array items => items.mapM asText
  | _ => none

def asChoice : Document → Option String
  | text content => content
  | object [(name, null)] => name
  | _ => none

end Document

def FilterStyle.ofDocument (d : Document) : Option FilterStyle :=
  match d.asChoice with
  | some "bracketed" => some .bracketed
  | some "flat" => some .flat
  | _ => none

def SearchDriver.ofDocument (d : Document) : Option SearchDriver :=
  match d.asChoice with
  | some "native" => some .native
  | some "like" => some .like
  | _ => none

def AllowLists.ofDocument (d : Document) : Option AllowLists := do
  let values ← d.record ["filterable", "sortable", "selectable", "expandable", "searchable"]
  return {
    filterable := ← Document.member values 0 default.filterable Document.asTexts
    sortable := ← Document.member values 1 default.sortable Document.asTexts
    selectable := ← Document.member values 2 default.selectable Document.asTexts
    expandable := ← Document.member values 3 default.expandable Document.asTexts
    searchable := ← Document.member values 4 default.searchable Document.asTexts }

/-- Statuses by the names of their kinds; of a name that stands twice the last value counts. -/
def StatusTable.ofMembers : StatusTable → List (Option String × Document) → Option StatusTable
  | table, [] => some table
  | table, (key, value) :: rest =>
    match key.bind FailureKind.ofKey?, value.asNatBelow halfBound with
    | some kind, some code => ofMembers (table.set kind code) rest
    | _, _ => none

def StatusTable.ofDocument : Document → Option StatusTable
  | .object members => ofMembers .default members
  | _ => none

def StatusTable.read (s : String) : Option StatusTable := (Document.read s).bind ofDocument

namespace Settings

def ofDocument (d : Document) : Option Settings := do
  let values ← d.record ["prefix", "filter_style", "default_page_size", "max_page_size",
    "search_driver", "search_score_column", "envelope", "clean_expansions", "clean_selects",
    "allow", "statuses"]
  return {
    keyPrefix := ← Document.member values 0 default.keyPrefix Document.asText
    filterStyle := ← Document.member values 1 default.filterStyle FilterStyle.ofDocument
    defaultPageSize :=
      ← Document.member values 2 default.defaultPageSize (Document.asNatBelow wordBound)
    maxPageSize := ← Document.member values 3 default.maxPageSize (Document.asNatBelow wordBound)
    searchDriver := ← Document.member values 4 default.searchDriver SearchDriver.ofDocument
    scoreColumn := ← Document.member values 5 default.scoreColumn Document.asText
    envelope := ← Document.member values 6 default.envelope Document.asBool
    cleanExpansions := ← Document.member values 7 default.cleanExpansions Document.asBool
    cleanSelects := ← Document.member values 8 default.cleanSelects Document.asBool
    allow := ← Document.member values 9 default.allow AllowLists.ofDocument
    statuses := ← Document.member values 10 default.statuses StatusTable.ofDocument }

def read (s : String) : Option Settings := (Document.read s).bind ofDocument

end Settings

end RestQuery
