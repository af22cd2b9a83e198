/-!
# UTF-8

Octets to characters and back. Reading never fails: every maximal part of an ill-formed sequence
that could begin a character is read as one replacement character.
-/

namespace RestQuery.Utf8

def encode (cs : List Char) : List UInt8 := cs.flatMap String.utf8EncodeChar

/-- A character of which some octets are still owed. The next octet must lie between `low` and
`high`; `value` holds the bits read so far. -/
structure Pending where
  owed : Nat
  low : Nat
  high : Nat
  value : Nat

def replacement : Char := '\uFFFD'

/-- What an octet gives where a character may begin: finished characters, and what it opens. -/
def open? (b : Nat) : List Char × Option Pending :=
  if b < 0x80 then ([Char.ofNat b], none)
  else if b < 0xC2 then ([replacement], none)
  else if b < 0xE0 then ([], some ⟨1, 0x80, 0xBF, b - 0xC0⟩)
  else if b < 0xF0 then
    ([], some ⟨2, if b = 0xE0 then 0xA0 else 0x80, if b = 0xED then 0x9F else 0xBF, b - 0xE0⟩)
  else if b < 0xF5 then
    ([], some ⟨3, if b = 0xF0 then 0x90 else 0x80, if b = 0xF4 then 0x8F else 0xBF, b - 0xF0⟩)
  else ([replacement], none)

def decodeFrom : Option Pending → List UInt8 → List Char
  | none, [] => []
  | some _, [] => [replacement]
  | none, b :: bs =>
    let (done, next) := open? b.toNat
    done ++ decodeFrom next bs
  | some p, b :: bs =>
    if p.low ≤ b.toNat ∧ b.toNat ≤ p.high then
      let value := p.value * 64 + b.toNat % 64
      if p.owed ≤ 1 then Char.ofNat value :: decodeFrom none bs
      else decodeFrom (some ⟨p.owed - 1, 0x80, 0xBF, value⟩) bs
    else
      let (done, next) := open? b.toNat
      replacement :: (done ++ decodeFrom next bs)

def decode (bs : List UInt8) : List Char := decodeFrom none bs

end RestQuery.Utf8
