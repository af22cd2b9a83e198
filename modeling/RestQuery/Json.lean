import RestQuery.Dict
import RestQuery.Double.Decimal
import RestQuery.Text.Hex

/-!
# JSON values

Rows, metadata and bodies are JSON values. A number is a whole number or a double; the fields of an
object are ordered by key, so two objects with the same fields are equal.
-/

namespace RestQuery

inductive Number where
  | int (value : Int)
  | double (value : Double)
deriving DecidableEq, Repr

inductive Json where
  | null
  | bool (value : Bool)
  | number (value : Number)
  | text (value : String)
  | array (items : List Json)
  | object (fields : List (String × Json))
deriving Repr, Inhabited

abbrev Row := Dict Json

def Number.write : Number → String
  | .int value => toString value
  | .double value => value.scientific

namespace Json

/-- The object with the given fields, a later one replacing an earlier one of the same name. -/
def ofFields (fields : List (String × Json)) : Json := object (Dict.ofList fields)

def ofNat (n : Nat) : Json := number (.int n)

def asObject : Json → Option Row
  | object fields => some fields
  | _ => none

def escapeChar (c : Char) : List Char :=
  if c = '"' then ['\\', '"']
  else if c = '\\' then ['\\', '\\']
  else if c = '\n' then ['\\', 'n']
  else if c = '\r' then ['\\', 'r']
  else if c = '\t' then ['\\', 't']
  else if c.toNat = 8 then ['\\', 'b']
  else if c.toNat = 12 then ['\\', 'f']
  else if c.toNat < 0x20 then
    ['\\', 'u', '0', '0', Text.hexDigitSmall (c.toNat / 16), Text.hexDigitSmall (c.toNat % 16)]
  else [c]

def quote (s : String) : List Char := '"' :: (s.toList.flatMap escapeChar ++ ['"'])

mutual

def writeChars : Json → List Char
  | null => ['n', 'u', 'l', 'l']
  | bool true => ['t', 'r', 'u', 'e']
  | bool false => ['f', 'a', 'l', 's', 'e']
  | number value => value.write.toList
  | text value => quote value
  | array items => '[' :: writeItems items
  | object fields => '\x7b' :: writeFields fields

def writeItems : List Json → List Char
  | [] => [']']
  | [item] => writeChars item ++ [']']
  | item :: next :: rest => writeChars item ++ ',' :: writeItems (next :: rest)

def writeFields : List (String × Json) → List Char
  | [] => ['\x7d']
  | [(key, value)] => quote key ++ ':' :: (writeChars value ++ ['\x7d'])
  | (key, value) :: next :: rest =>
    quote key ++ ':' :: (writeChars value ++ ',' :: writeFields (next :: rest))

end

/-- The value without blanks between its parts. -/
def write (value : Json) : String := String.ofList (writeChars value)

end Json

end RestQuery
