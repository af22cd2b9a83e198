import RestQuery.Database
import RestQuery.Sql.OfPlan
import RestQuery.Text.Casing
import RestQuery.Word

/-!
# Replies

A reply carries rows and metadata. Flat replies put each piece of metadata into a header named by
its title; envelopes put it into the body, under a key made from the title; count replies carry the
metadata alone. What cannot be a header is left out of the headers.
-/

namespace RestQuery

/-! ### Options of a request -/

structure ReplyOptions where
  countMode : Bool
  envelope : Bool
  totalCount : Bool
  filterCount : Bool
deriving DecidableEq, Repr

namespace ReplyOptions

def ofSettings (settings : Settings) : ReplyOptions := ⟨false, settings.envelope, false, false⟩

def set (options : ReplyOptions) (option : String) : Except Failure ReplyOptions :=
  if option = "mode-default" then .ok { options with countMode := false }
  else if option = "mode-count" then .ok { options with countMode := true }
  else if option = "meta-total-count" then .ok { options with totalCount := true }
  else if option = "meta-filter-count" then .ok { options with filterCount := true }
  else if option = "response-envelope" then .ok { options with envelope := true }
  else if option = "response-default" then .ok { options with envelope := false }
  else .error (.parameter (.unknownOption option))

def read (settings : Settings) (value : String) : Except Failure ReplyOptions :=
  (Text.listed value).foldlM set (ofSettings settings)

end ReplyOptions

/-! ### Metadata -/

def totalCountTitle : String := "Meta-Total-Count"

def filterCountTitle : String := "Meta-Filter-Count"

def queryTitle : String := "Meta-Query"

inductive MetaSource where
  | count (title : String) (plan : Plan)
  /-- The query string of the request without its page. -/
  | query (text : String)

namespace MetaSource

def title : MetaSource → String
  | count title _ => title
  | query _ => queryTitle

def evaluate (db : Database) : MetaSource → Run Json
  | count _ plan => do return .ofNat (← db.count (.countOf plan))
  | query text => return .text text

def evaluateAll (db : Database) : List MetaSource → Run (List (String × Json))
  | [] => return []
  | source :: rest => do
    let value ← source.evaluate db
    let values ← evaluateAll db rest
    return (source.title, value) :: values

end MetaSource

/-- The key of a piece of metadata in a body: its title without `Meta-`, in small letters, with
underscores in place of hyphens. -/
def metaKey (title : String) : String :=
  let name := (Text.stripLead "Meta-" title).getD title
  String.ofList ((Text.lowered name).toList.map fun c => if c = '-' then '_' else c)

/-! ### Headers -/

/-- Header values by name, names in small letters. -/
abbrev Headers := Dict String

def isTokenChar (c : Char) : Bool :=
  c.isAlphanum || "!#$%&'*+-.^_`|~".toList.contains c

def headerName (title : String) : Option String :=
  if title ≠ "" ∧ title.toList.all isTokenChar then
    some (String.ofList (title.toList.map Char.toLower))
  else none

/-- Every character but the ASCII controls, of which only the tab is allowed. -/
def isHeaderChar (c : Char) : Bool := (32 ≤ c.toNat && c.toNat != 127) || c == '\t'

/-- The text of a value in a header: text as it is, all else as JSON. -/
def headerText : Json → String
  | .text s => s
  | value => value.write

def headerValue (value : Json) : Option String :=
  if (headerText value).toList.all isHeaderChar then some (headerText value) else none

def addMetaHeader (headers : Headers) (entry : String × Json) : Headers :=
  match headerName entry.1, headerValue entry.2 with
  | some name, some value => headers.insert name value
  | _, _ => headers

/-- The headers of metadata; of one name the last entry counts. -/
def metaHeaders (entries : List (String × Json)) : Headers := entries.foldl addMetaHeader []

def Headers.extend (headers more : Headers) : Headers :=
  more.foldl (fun headers (name, value) => headers.insert name value) headers

def printable (name : String) : String :=
  String.ofList (name.toList.filter fun c => 32 ≤ c.toNat && c.toNat < 127)

/-- Which of `total` rows a page of `returned` rows from `offset` on shows. -/
def contentRange (offset returned total : Nat) (name : String) : String :=
  if returned = 0 then printable name ++ " */" ++ toString total
  else
    let last := min (min (offset + (returned - 1)) (wordBound - 1)) (total - 1)
    printable name ++ " " ++ toString offset ++ "-" ++ toString last ++ "/" ++ toString total

def contentRangeHeaders (offset returned total : Nat) (name : String) : Headers :=
  match headerValue (.text (contentRange offset returned total name)) with
  | some text => [("content-range", text)]
  | none => []

/-! ### Replies -/

structure Reply where
  headers : Headers
  body : Json
deriving Repr

def metaObject (keyOf : String → String) (entries : List (String × Json)) : Json :=
  .ofFields (entries.map fun (title, value) => (keyOf title, value))

/-- The reply for data and metadata; more headers are sent with flat bodies only. -/
def Reply.render (options : ReplyOptions) (entries : List (String × Json)) (data : Json)
    (more : Headers) : Reply :=
  if options.countMode then
    ⟨metaHeaders entries, metaObject (if options.envelope then metaKey else id) entries⟩
  else if options.envelope then
    ⟨[], .ofFields [("meta", metaObject metaKey entries), ("data", data)]⟩
  else ⟨(metaHeaders entries).extend more, data⟩

structure HttpReply where
  status : Nat
  headers : Headers
  body : Json
deriving Repr

def jsonHeaders : Headers := [("content-type", "application/json")]

def Reply.toHttp (reply : Reply) : HttpReply :=
  ⟨200, jsonHeaders.extend reply.headers, reply.body⟩

def Failure.toHttp (failure : Failure) (statuses : StatusTable) : HttpReply :=
  ⟨statuses.statusOf failure.kind, jsonHeaders, .ofFields [("error", .text failure.message)]⟩

end RestQuery
