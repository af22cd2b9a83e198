/-!
# Double-precision numbers

A number is a sign with a whole mantissa below `2 ^ 53` and a power of two, or infinite. `ofRatio`
rounds a quotient of naturals to the nearest such number, a tie to the even mantissa.
-/

namespace RestQuery

inductive Double where
  /-- The value `± mantissa * 2 ^ exponent`; the exponent is least possible, at least `-1074`. -/
  | finite (negative : Bool) (mantissa : Nat) (exponent : Int)
  | infinite (negative : Bool)
deriving DecidableEq, Repr

namespace Double

def twoPow (n : Nat) : Nat := Nat.pow 2 n

def tenPow (n : Nat) : Nat := Nat.pow 10 n

def leastExponent : Int := -1074

def greatestExponent : Int := 971

def zero (negative : Bool) : Double := finite negative 0 leastExponent

/-- `num / den` scaled by `2 ^ (-exponent)`, as a quotient. -/
def scaleDown (num den : Nat) (exponent : Int) : Nat × Nat :=
  if exponent ≥ 0 then (num, den * twoPow exponent.toNat) else (num * twoPow (-exponent).toNat, den)

/-- The nearest natural to a quotient, a tie to the even one. -/
def roundQuotient (num den : Nat) : Nat :=
  let quotient := num / den
  let rest := num % den
  if 2 * rest > den ∨ (2 * rest = den ∧ quotient % 2 = 1) then quotient + 1 else quotient

/-- The exponent at which the integer part of `num / den` has 53 binary digits, if that is not
below the least exponent. -/
def exponentOf (num den : Nat) : Int :=
  let guess : Int := Int.ofNat num.log2 - Int.ofNat den.log2 - 52
  let (n, d) := scaleDown num den guess
  max leastExponent (if n / d < twoPow 52 then guess - 1 else guess)

def ofRatio (negative : Bool) (num den : Nat) : Double :=
  if num = 0 then zero negative
  else
    let exponent := exponentOf num den
    let (n, d) := scaleDown num den exponent
    let mantissa := roundQuotient n d
    let (mantissa, exponent) :=
      if mantissa = twoPow 53 then (twoPow 52, exponent + 1) else (mantissa, exponent)
    if exponent > greatestExponent then infinite negative else finite negative mantissa exponent

def ofNat (n : Nat) : Double := ofRatio false n 1

def ofScientific (negative : Bool) (digits : Nat) (power : Int) : Double :=
  if digits = 0 then zero negative
  else if power ≥ 0 then
    if power > 400 then infinite negative
    else ofRatio negative (digits * tenPow power.toNat) 1
  else
    let places := (-power).toNat
    if places > digits.log2 + 400 then zero negative
    else ofRatio negative digits (tenPow places)

end Double

end RestQuery
