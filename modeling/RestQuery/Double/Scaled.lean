import RestQuery.Double
import RestQuery.Text.Digits
import RestQuery.Word

/-!
# Decimals by double arithmetic

`ofParts` turns digits and a power of ten into a double by double arithmetic: the digits become a
double, and that is multiplied or divided by a double power of ten. Each step is rounded, so the
result can differ in its last place from `ofScientific`, which rounds once. Both agree where the
digits and the power are doubles themselves.
-/

namespace RestQuery.Double

def greatestTen : Nat := 308

def ofScaledRatio (negative : Bool) (num den : Nat) (exponent : Int) : Double :=
  let (n, d) := scaleDown num den (-exponent)
  ofRatio negative n d

def timesTen (power : Int) : Double → Double
  | infinite negative => infinite negative
  | finite negative mantissa exponent =>
    match ofNat (tenPow power.natAbs) with
    | infinite _ => infinite negative
    | finite _ ten tenExponent =>
      if power ≥ 0 then ofScaledRatio negative (mantissa * ten) 1 (exponent + tenExponent)
      else ofScaledRatio negative mantissa ten (exponent - tenExponent)

/-- The double for `± digits * 10 ^ power`. A power below the least power of ten is divided out in
two steps. There is none if the number is too large. -/
def ofParts (negative : Bool) (digits : Nat) (power : Int) : Option Double :=
  if digits = 0 then some (zero negative)
  else if power > greatestTen then none
  else
    let start := ofRatio negative digits 1
    let scaled :=
      if power ≥ -greatestTen then start.timesTen power
      else if power ≥ -(2 * greatestTen) then
        (start.timesTen (-greatestTen)).timesTen (power + greatestTen)
      else zero negative
    match scaled with
    | infinite _ => none
    | finite .. => some scaled

/-- The number that digits continue, as long as it stays below `2 ^ 64`, and the count of digits
left over. -/
def continueDigits : Nat → List Char → Nat × Nat
  | n, [] => (n, 0)
  | n, d :: ds =>
    let next := n * 10 + Text.natOfDigits [d]
    if next < wordBound then continueDigits next ds else (n, (d :: ds).length)

def ofDecimal (negative : Bool) (whole places : List Char) (exponent : Int) : Option Double :=
  let (n, above) := continueDigits 0 whole
  let (n, below) := continueDigits n places
  ofParts negative n (exponent + above - (places.length - below))

end RestQuery.Double
