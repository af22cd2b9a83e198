import RestQuery.Double.Scaled
import RestQuery.Json

/-!
# Written JSON documents

`Document.read` reads a text by the JSON grammar and keeps what the grammar keeps: number literals
as written, and the members of an object in their order with repetitions. A string that escapes half
a surrogate pair is well-formed but has no content, be it a value or a key. `Document.toJson` turns
a document into a value.
-/

namespace RestQuery

/-- A number as written: the digits before and after its point, and its power of ten. -/
structure NumberLiteral where
  negative : Bool
  whole : List Char
  places : Option (List Char)
  exponent : Option Int
deriving DecidableEq, Repr

def NumberLiteral.nat? (l : NumberLiteral) : Option Nat :=
  if l.places.isNone ∧ l.exponent.isNone then some (Text.natOfDigits l.whole) else none

inductive Document where
  | null
  | bool (value : Bool)
  | number (literal : NumberLiteral)
  /-- A string; `none` if it is not Unicode text. -/
  | text (content : Option String)
  | array (items : List Document)
  | object (members : List (Option String × Document))
deriving Repr, Inhabited

namespace Document

def isSpace (c : Char) : Bool := c == ' ' || c == '\n' || c == '\t' || c == '\r'

def skipSpace (cs : List Char) : List Char := cs.dropWhile isSpace

/-- A string element: a character, or a UTF-16 unit written as an escape. -/
abbrev Element := Char ⊕ Nat

def simpleEscape (c : Char) : Option Char :=
  if c = '"' ∨ c = '\\' ∨ c = '/' then some c
  else if c = 'b' then some '\x08'
  else if c = 'f' then some '\x0c'
  else if c = 'n' then some '\n'
  else if c = 'r' then some '\r'
  else if c = 't' then some '\t'
  else none

def unitOfHex (a b c d : Char) : Option Nat := do
  let a ← Text.hexValue a
  let b ← Text.hexValue b
  let c ← Text.hexValue c
  let d ← Text.hexValue d
  return ((a * 16 + b) * 16 + c) * 16 + d

def readElements : List Char → Option (List Element × List Char)
  | [] => none
  | c :: cs =>
    if c = '"' then some ([], cs)
    else if c = '\\' then
      match cs with
      | 'u' :: h1 :: h2 :: h3 :: h4 :: rest =>
        match unitOfHex h1 h2 h3 h4, readElements rest with
        | some unit, some (elements, rest) => some (.inr unit :: elements, rest)
        | _, _ => none
      | e :: rest =>
        match simpleEscape e, readElements rest with
        | some c, some (elements, rest) => some (.inl c :: elements, rest)
        | _, _ => none
      | [] => none
    else if c.toNat < 0x20 then none
    else
      match readElements cs with
      | some (elements, rest) => some (.inl c :: elements, rest)
      | none => none

/-- Joins surrogate pairs; fails on half a pair. -/
def joinUnits : List Element → Option (List Char)
  | [] => some []
  | .inl c :: rest => (joinUnits rest).map (c :: ·)
  | .inr high :: .inr low :: rest =>
    if 0xD800 ≤ high ∧ high < 0xDC00 then
      if 0xDC00 ≤ low ∧ low < 0xE000 then
        (joinUnits rest).map
          (Char.ofNat (0x10000 + (high - 0xD800) * 0x400 + (low - 0xDC00)) :: ·)
      else none
    else if 0xDC00 ≤ high ∧ high < 0xE000 then none
    else (joinUnits (.inr low :: rest)).map (Char.ofNat high :: ·)
  | .inr unit :: rest =>
    if 0xD800 ≤ unit ∧ unit < 0xE000 then none
    else (joinUnits rest).map (Char.ofNat unit :: ·)

def readText (cs : List Char) : Option (Option String × List Char) :=
  (readElements cs).map fun (elements, rest) => ((joinUnits elements).map String.ofList, rest)

def readExponent : List Char → Option (Option Int × List Char)
  | c :: cs =>
    if c = 'e' ∨ c = 'E' then
      let (negative, cs) := match cs with
        | '-' :: rest => (true, rest)
        | '+' :: rest => (false, rest)
        | _ => (false, cs)
      let ds := cs.takeWhile Char.isDigit
      if ds = [] then none
      else
        let n : Int := Text.natOfDigits ds
        some (some (if negative then -n else n), cs.dropWhile Char.isDigit)
    else some (none, c :: cs)
  | [] => some (none, [])

def readFraction : List Char → Option (Option (List Char) × List Char)
  | '.' :: cs =>
    let ds := cs.takeWhile Char.isDigit
    if ds = [] then none else some (some ds, cs.dropWhile Char.isDigit)
  | cs => some (none, cs)

def readNumber (cs : List Char) : Option (NumberLiteral × List Char) := do
  let (negative, cs) := match cs with
    | '-' :: rest => (true, rest)
    | _ => (false, cs)
  let whole := cs.takeWhile Char.isDigit
  if Text.isWhole whole then
    let (places, cs) ← readFraction (cs.dropWhile Char.isDigit)
    let (exponent, cs) ← readExponent cs
    return (⟨negative, whole, places, exponent⟩, cs)
  else none

mutual

/-- A value at the start of the text, after blanks; `fuel` bounds the number of steps. -/
def readValue : Nat → List Char → Option (Document × List Char)
  | 0, _ => none
  | fuel + 1, cs =>
    match skipSpace cs with
    | [] => none
    | 'n' :: 'u' :: 'l' :: 'l' :: rest => some (null, rest)
    | 't' :: 'r' :: 'u' :: 'e' :: rest => some (bool true, rest)
    | 'f' :: 'a' :: 'l' :: 's' :: 'e' :: rest => some (bool false, rest)
    | c :: rest =>
      if c = '"' then (readText rest).map fun (content, rest) => (text content, rest)
      else if c = '[' then
        match skipSpace rest with
        | ']' :: rest => some (array [], rest)
        | _ => (readItems fuel rest).map fun (items, rest) => (array items, rest)
      else if c = '\x7b' then
        match skipSpace rest with
        | '\x7d' :: rest => some (object [], rest)
        | _ => (readMembers fuel rest).map fun (members, rest) => (object members, rest)
      else (readNumber (c :: rest)).map fun (literal, rest) => (number literal, rest)

def readItems : Nat → List Char → Option (List Document × List Char)
  | 0, _ => none
  | fuel + 1, cs => do
    let (item, rest) ← readValue fuel cs
    match skipSpace rest with
    | ']' :: rest => return ([item], rest)
    | ',' :: rest =>
      let (items, rest) ← readItems fuel rest
      return (item :: items, rest)
    | _ => none

def readMembers : Nat → List Char → Option (List (Option String × Document) × List Char)
  | 0, _ => none
  | fuel + 1, cs =>
    match skipSpace cs with
    | '"' :: rest => do
      let (key, rest) ← readText rest
      match skipSpace rest with
      | ':' :: rest =>
        let (value, rest) ← readValue fuel rest
        match skipSpace rest with
        | '\x7d' :: rest => return ([(key, value)], rest)
        | ',' :: rest =>
          let (members, rest) ← readMembers fuel rest
          return ((key, value) :: members, rest)
        | _ => none
      | _ => none
    | _ => none

end

def read (s : String) : Option Document :=
  match readValue (s.toList.length + 1) s.toList with
  | some (document, rest) => if skipSpace rest = [] then some document else none
  | none => none

end Document

def NumberLiteral.toDouble (l : NumberLiteral) : Option Double :=
  Double.ofDecimal l.negative l.whole (l.places.getD []) (l.exponent.getD 0)

/-- Whole numbers from `- 2 ^ 63` to `2 ^ 64 - 1` stay whole, all others become doubles. A number
too large for a double has no value. -/
def NumberLiteral.toNumber (l : NumberLiteral) : Option Number :=
  match l.nat? with
  | some n =>
    if !l.negative ∧ n < wordBound then some (.int n)
    else if l.negative ∧ 0 < n ∧ n ≤ intBound then some (.int (-n))
    else l.toDouble.map .double
  | none => l.toDouble.map .double

namespace Document

mutual

def toJson : Document → Option Json
  | null => some .null
  | bool value => some (.bool value)
  | number literal => literal.toNumber.map .number
  | text content => content.map .text
  | array items => (itemsToJson items).map .array
  | object members => (membersToJson members).map .ofFields

def itemsToJson : List Document → Option (List Json)
  | [] => some []
  | item :: rest => do return (← toJson item) :: (← itemsToJson rest)

def membersToJson : List (Option String × Document) → Option (List (String × Json))
  | [] => some []
  | (key, value) :: rest => do return (← key, ← toJson value) :: (← membersToJson rest)

end

end Document

def Json.read (s : String) : Option Json := (Document.read s).bind Document.toJson

end RestQuery
