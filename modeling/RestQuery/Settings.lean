import RestQuery.Failure

/-!
# Settings of a handler

Settings fix how requests are spelled and what they may ask for. The allow-lists hold glob patterns,
save for the searchable columns, which are plain names. An entity may replace some of the lists.
-/

namespace RestQuery

inductive FilterStyle where
  /-- Filters stand in brackets, as in `filter-lk[title]=x*`. -/
  | bracketed
  | flat
deriving DecidableEq, Repr

inductive SearchDriver where
  | native
  | like
deriving DecidableEq, Repr

structure AllowLists where
  filterable : List String
  sortable : List String
  selectable : List String
  expandable : List String
  searchable : List String
deriving DecidableEq, Repr

structure AllowOverride where
  filterable : Option (List String)
  sortable : Option (List String)
  selectable : Option (List String)
  expandable : Option (List String)
  searchable : Option (List String)
deriving DecidableEq, Repr

namespace AllowLists

def default : AllowLists := ⟨[], [], ["*"], [], []⟩

def permissive : AllowLists := ⟨["*"], ["*"], ["*"], ["*"], []⟩

def merged (lists : AllowLists) (own : AllowOverride) : AllowLists where
  filterable := own.filterable.getD lists.filterable
  sortable := own.sortable.getD lists.sortable
  selectable := own.selectable.getD lists.selectable
  expandable := own.expandable.getD lists.expandable
  searchable := own.searchable.getD lists.searchable

end AllowLists

structure Settings where
  /-- What every reserved parameter name begins with. -/
  keyPrefix : String
  filterStyle : FilterStyle
  defaultPageSize : Nat
  maxPageSize : Nat
  searchDriver : SearchDriver
  scoreColumn : String
  envelope : Bool
  cleanExpansions : Bool
  /-- Whether columns that were added only to tie rows together are removed. -/
  cleanSelects : Bool
  allow : AllowLists
  statuses : StatusTable
deriving DecidableEq, Repr

namespace Settings

def default : Settings where
  keyPrefix := ""
  filterStyle := .bracketed
  defaultPageSize := 30
  maxPageSize := 500
  searchDriver := .native
  scoreColumn := "search_score"
  envelope := false
  cleanExpansions := true
  cleanSelects := true
  allow := .default
  statuses := .default

def legacy : Settings := { default with keyPrefix := "_", filterStyle := .flat }

def param (settings : Settings) (name : String) : String := settings.keyPrefix ++ name

def reservedNames : List String :=
  ["select", "fields", "sort", "expand", "with", "search", "q", "limit", "offset", "page",
    "pageSize", "config", "filter"]

/-- Whether a parameter cannot be a flat filter. Without a prefix these are the reserved names and
all that begins with `filter`; with one, all keys that go on after the prefix. -/
def isReserved (settings : Settings) (key : String) : Bool :=
  match Text.stripLead settings.keyPrefix key with
  | none => false
  | some name =>
    reservedNames.contains name ||
      (settings.keyPrefix == "" && (Text.stripLead "filter" name).isSome) ||
      (settings.keyPrefix != "" && name != "")

end Settings

end RestQuery
