import RestQuery.Text.Pieces
import RestQuery.Text.WordClass

/-!
# What can go wrong with a request

A `Failure` names its cause. `message` is the text a client may see: the details of database and
internal failures never reach it. Every failure belongs to a kind, and a `StatusTable` gives each
kind its HTTP status.
-/

namespace RestQuery

inductive FailureKind where
  | invalidQueryParameter
  | unknownResourceField
  | unknownResourceRelation
  | invalidSelect
  | invalidSort
  | invalidFilter
  | invalidExpand
  | invalidSearch
  | invalidPagination
  | notFound
  | unauthorized
  | forbidden
  | tooManyRequests
  | database
  | internal
deriving DecidableEq, Repr

namespace FailureKind

def all : List FailureKind :=
  [invalidQueryParameter, unknownResourceField, unknownResourceRelation, invalidSelect, invalidSort,
    invalidFilter, invalidExpand, invalidSearch, invalidPagination, notFound, unauthorized,
    forbidden, tooManyRequests, database, internal]

def name : FailureKind → String
  | invalidQueryParameter => "InvalidQueryParameter"
  | unknownResourceField => "UnknownResourceField"
  | unknownResourceRelation => "UnknownResourceRelation"
  | invalidSelect => "InvalidSelect"
  | invalidSort => "InvalidSort"
  | invalidFilter => "InvalidFilter"
  | invalidExpand => "InvalidExpand"
  | invalidSearch => "InvalidSearch"
  | invalidPagination => "InvalidPagination"
  | notFound => "NotFound"
  | unauthorized => "Unauthorized"
  | forbidden => "Forbidden"
  | tooManyRequests => "TooManyRequests"
  | database => "Database"
  | internal => "Internal"

def key : FailureKind → String
  | invalidQueryParameter => "invalid_query_parameter"
  | unknownResourceField => "unknown_resource_field"
  | unknownResourceRelation => "unknown_resource_relation"
  | invalidSelect => "invalid_select"
  | invalidSort => "invalid_sort"
  | invalidFilter => "invalid_filter"
  | invalidExpand => "invalid_expand"
  | invalidSearch => "invalid_search"
  | invalidPagination => "invalid_pagination"
  | notFound => "not_found"
  | unauthorized => "unauthorized"
  | forbidden => "forbidden"
  | tooManyRequests => "too_many_requests"
  | database => "database"
  | internal => "internal"

def ofKey? (key : String) : Option FailureKind := all.find? fun kind => kind.key == key

def defaultStatus : FailureKind → Nat
  | notFound => 404
  | unauthorized => 401
  | forbidden => 403
  | tooManyRequests => 429
  | database => 500
  | internal => 500
  | _ => 422

end FailureKind

/-- Statuses that differ from the defaults, the latest entry first. -/
structure StatusTable where
  entries : List (FailureKind × Nat)
deriving DecidableEq, Repr

namespace StatusTable

def default : StatusTable := ⟨[]⟩

def set (table : StatusTable) (kind : FailureKind) (code : Nat) : StatusTable :=
  ⟨(kind, code) :: table.entries⟩

/-- An entry that is no three-digit status counts as absent. -/
def statusOf (table : StatusTable) (kind : FailureKind) : Nat :=
  match table.entries.lookup kind with
  | some code => if 100 ≤ code ∧ code ≤ 999 then code else kind.defaultStatus
  | none => kind.defaultStatus

end StatusTable

inductive DatabaseFault where
  | report (text : String)
  | noRecord (text : String)
  | unanswered
  | unreadableCount
deriving DecidableEq, Repr

inductive ParameterFault where
  | malformedFilter (key : String)
  | unknownSuffix (suffix : String)
  | unknownOption (option : String)
  | other (text : String)
deriving DecidableEq, Repr

inductive ExpandFault where
  | notAllowed
  /-- A segment follows a relation whose target differs from row to row. -/
  | pastPolymorphic (segment : String)
  | columnsOfPolymorphic
  | other (text : String)
deriving DecidableEq, Repr

inductive SearchFault where
  | nothingSearchable
  | other (text : String)
deriving DecidableEq, Repr

inductive PageFault where
  | notNumeric (what given : String)
  | sizeTooLarge (most given : Nat)
  | pageZero
  | pageOutOfRange (page : Nat)
  | offsetTooLarge (most given : Nat)
  | other (text : String)
deriving DecidableEq, Repr

inductive InternalFault where
  | unregisteredEntity (entity : String)
  | unregisteredTarget (entity segment target : String)
  | unregisteredRelated (relation target : String)
  | noTypeColumn (relation : String)
  | other (message : String) (details : Option String)
deriving DecidableEq, Repr

inductive Failure where
  | parameter (fault : ParameterFault)
  | unknownField (field : String)
  | unknownRelation (entity relation : String)
  | select (path : String)
  | sort (path : String)
  | filter (path : String)
  | expand (path : String) (fault : ExpandFault)
  | search (fault : SearchFault)
  | page (fault : PageFault)
  | notFound (resource : String) (id : Option String)
  | unauthorized (text : String)
  | forbidden (text : String)
  | tooManyRequests (text : String)
  | database (fault : DatabaseFault)
  | internal (fault : InternalFault)
deriving DecidableEq, Repr

def ParameterFault.message : ParameterFault → String
  | malformedFilter key => s!"Malformed filter parameter \"{key}\""
  | unknownSuffix suffix => s!"No filter registered under the suffix \"{suffix}\""
  | unknownOption option => s!"Unknown config option \"{option}\""
  | other text => text

def ExpandFault.message : ExpandFault → String
  | notAllowed => "not allowed on this endpoint"
  | pastPolymorphic segment => s!"'{segment}' is polymorphic and cannot be expanded further"
  | columnsOfPolymorphic => "polymorphic relations do not accept columns"
  | other text => text

def SearchFault.message : SearchFault → String
  | nothingSearchable => "There are no searchable columns for this endpoint"
  | other text => text

def PageFault.message : PageFault → String
  | notNumeric what given => s!"The {what} is expected to be numeric, \"{given}\" given"
  | sizeTooLarge most given =>
    s!"The page size or limit is expected to be at most {most}, {given} given"
  | pageZero => "The page is expected to start at 1"
  | pageOutOfRange page => s!"The page {page} is out of range"
  | offsetTooLarge most given => s!"The offset is expected to be at most {most}, {given} given"
  | other text => text

def InternalFault.message : InternalFault → String
  | unregisteredEntity entity => s!"Entity '{entity}' is not registered"
  | unregisteredTarget _ _ _ => "Relation points at an unregistered entity"
  | unregisteredRelated relation _ => s!"Relation '{relation}' points at an unregistered entity"
  | noTypeColumn relation => s!"Relation '{relation}' has no morph type column"
  | other message _ => message

def InternalFault.details : InternalFault → Option String
  | unregisteredTarget entity segment target => some s!"{entity}.{segment} -> {target}"
  | unregisteredRelated _ target => some target
  | other _ details => details
  | _ => none

namespace Failure

def kind : Failure → FailureKind
  | parameter _ => .invalidQueryParameter
  | unknownField _ => .unknownResourceField
  | unknownRelation _ _ => .unknownResourceRelation
  | select _ => .invalidSelect
  | sort _ => .invalidSort
  | filter _ => .invalidFilter
  | expand _ _ => .invalidExpand
  | search _ => .invalidSearch
  | page _ => .invalidPagination
  | notFound _ _ => .notFound
  | unauthorized _ => .unauthorized
  | forbidden _ => .forbidden
  | tooManyRequests _ => .tooManyRequests
  | database _ => .database
  | internal _ => .internal

def message : Failure → String
  | parameter fault => fault.message
  | unknownField field => s!"Unknown field '{field}'"
  | unknownRelation entity relation => s!"Unknown relation '{relation}' on {entity}"
  | select path => s!"Selecting '{path}' is not allowed"
  | sort path => s!"Sorting by '{path}' is not allowed"
  | filter path => s!"Filtering by '{path}' is not allowed"
  | expand path fault => s!"Cannot expand '{path}': {fault.message}"
  | search fault => fault.message
  | page fault => fault.message
  | notFound resource (some id) => s!"{resource} with ID '{id}' not found"
  | notFound resource none => s!"{resource} not found"
  | unauthorized text => text
  | forbidden text => text
  | tooManyRequests text => text
  | database _ => "A database error occurred"
  | internal fault => fault.message

end Failure

namespace DatabaseFault

def text : DatabaseFault → String
  | report text => s!"Custom Error: {text}"
  | noRecord text => s!"RecordNotFound Error: {text}"
  | unanswered => "Query Error"
  | unreadableCount => "Type Error"

/-- The first result of `f` on the ends of a text, the longest end first. -/
def firstAt (f : List Char → Option (List Char)) : List Char → Option (List Char)
  | [] => f []
  | c :: cs => (f (c :: cs)).or (firstAt f cs)

/-- `no such column: posts.nme`: the column is a run of word characters and dots. -/
def bareColumn (cs : List Char) : Option (List Char) :=
  (Text.afterLead "no such column: ".toList cs).bind fun rest =>
    let column := rest.takeWhile fun c => Text.isWordChar c || c == '.'
    if column = [] then none else some column

def quotedColumn (lead : String) (quote : Char) (ending : String) (cs : List Char) :
    Option (List Char) :=
  (Text.afterLead lead.toList cs).bind fun rest =>
    let column := rest.takeWhile (· ≠ quote)
    if column = [] then none
    else
      match rest.dropWhile (· ≠ quote) with
      | _ :: after => (Text.afterLead ending.toList after).map fun _ => column
      | [] => none

/-- The column that a report calls unknown, in the words of three engines. -/
def unknownColumn (fault : DatabaseFault) : Option String :=
  let cs := fault.text.toList
  let found := (firstAt bareColumn cs).or <|
    (firstAt (quotedColumn "Unknown column '" '\x27' "") cs).or
      (firstAt (quotedColumn "column \"" '"' " does not exist") cs)
  found.map String.ofList

/-- A missing record is not found, named by the first word of the report; all other faults stay
database failures. -/
def toFailure : DatabaseFault → Failure
  | noRecord text => .notFound ((Text.words text).head?.getD "Resource") none
  | fault => .database fault

def onStatement (fault : DatabaseFault) : Failure :=
  match fault.unknownColumn with
  | some column => .unknownField column
  | none => fault.toFailure

end DatabaseFault

end RestQuery
