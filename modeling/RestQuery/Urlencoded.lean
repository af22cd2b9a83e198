import RestQuery.Text.Hex
import RestQuery.Text.Pieces
import RestQuery.Utf8

/-!
# Form-urlencoded text

Names and values joined by `=`, pairs joined by `&`. Letters, digits and `*-._` stand for
themselves, a blank is written `+`, every other octet as a percent sign with two hexadecimal
digits. Reading accepts any text: a percent sign without two digits stands for itself.
-/

namespace RestQuery.Urlencoded

def isPlain (b : UInt8) : Bool :=
  let n := b.toNat
  n == 0x2A || n == 0x2D || n == 0x2E || n == 0x5F || (0x30 ≤ n && n ≤ 0x39) ||
    (0x41 ≤ n && n ≤ 0x5A) || (0x61 ≤ n && n ≤ 0x7A)

def encodeOctet (b : UInt8) : List Char :=
  if b.toNat = 0x20 then ['+']
  else if isPlain b then [Char.ofNat b.toNat]
  else ['%', Text.hexDigit (b.toNat / 16), Text.hexDigit (b.toNat % 16)]

def encodeText (s : String) : List Char := (Utf8.encode s.toList).flatMap encodeOctet

def decodeOctets : List Char → List UInt8
  | [] => []
  | c :: rest =>
    if c = '+' then 0x20 :: decodeOctets rest
    else if c = '%' then
      match rest with
      | h :: l :: rest' =>
        match Text.hexValue h, Text.hexValue l with
        | some high, some low => UInt8.ofNat (high * 16 + low) :: decodeOctets rest'
        | _, _ => 0x25 :: decodeOctets (h :: l :: rest')
      | [l] => 0x25 :: decodeOctets [l]
      | [] => [0x25]
    else String.utf8EncodeChar c ++ decodeOctets rest

def decodeText (cs : List Char) : String := String.ofList (Utf8.decode (decodeOctets cs))

def encodePair (pair : String × String) : List Char :=
  encodeText pair.1 ++ '=' :: encodeText pair.2

/-- A piece without `=` is a name with an empty value. -/
def decodePair (piece : List Char) : String × String :=
  match Text.cutFirstChars '=' piece with
  | some (name, value) => (decodeText name, decodeText value)
  | none => (decodeText piece, "")

def joinPairs : List (String × String) → List Char
  | [] => []
  | [pair] => encodePair pair
  | pair :: next :: rest => encodePair pair ++ '&' :: joinPairs (next :: rest)

def encode (pairs : List (String × String)) : String := String.ofList (joinPairs pairs)

/-- Reads the pairs; empty pieces between `&` are skipped. -/
def decode (query : String) : List (String × String) :=
  ((Text.splitWhere (· == '&') query.toList).filter (· ≠ [])).map decodePair

end RestQuery.Urlencoded
