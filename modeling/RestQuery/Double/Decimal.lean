import RestQuery.Double

/-!
# Shortest decimals

`shortest` finds the fewest decimal digits that read back as the same double, and among those the
ones nearest to its value; a `Tie` says which to take when the value lies half way between two.
`positional` writes them without an exponent and takes the upper one, `scientific` writes an
exponent when the number is very large or very small and takes the one with the even digit.
-/

namespace RestQuery.Double

/-- Digits and a power of ten: the number `digits * 10 ^ power`. -/
structure Decimal where
  digits : Nat
  power : Int
deriving DecidableEq, Repr

def compareWith (digits : Nat) (power : Int) (quarters : Nat) (exponent : Int) : Ordering :=
  let left := digits * (if power ≥ 0 then tenPow power.toNat else 1) *
    (if exponent - 2 < 0 then twoPow (2 - exponent).toNat else 1)
  let right := quarters * (if power < 0 then tenPow (-power).toNat else 1) *
    (if exponent - 2 ≥ 0 then twoPow (exponent - 2).toNat else 1)
  compare left right

/-- Whether a decimal lies in the interval of numbers that round to this mantissa and exponent.
The ends belong to it when the mantissa is even. -/
def readsBack (mantissa : Nat) (exponent : Int) (d : Decimal) : Bool :=
  let low := if mantissa = twoPow 52 ∧ exponent > leastExponent then 4 * mantissa - 1
    else 4 * mantissa - 2
  let below := compareWith d.digits d.power low exponent
  let above := compareWith d.digits d.power (4 * mantissa + 2) exponent
  (below == .gt && above == .lt) || (mantissa % 2 == 0 && (below == .eq || above == .eq))

/-- The count of digits before the decimal point of the value; zero or less for a value below 1,
counting the zeros that follow the point. -/
def magnitude (mantissa : Nat) (exponent : Int) : Int :=
  let scaled := if exponent ≥ 0 then mantissa * twoPow exponent.toNat * tenPow 400
    else mantissa * tenPow 400 / twoPow (-exponent).toNat
  Int.ofNat (Nat.toDigits 10 scaled).length - 400

def neighbours (mantissa : Nat) (exponent : Int) (count : Nat) : Decimal × Decimal :=
  let power := magnitude mantissa exponent - Int.ofNat count
  let num := mantissa * (if exponent ≥ 0 then twoPow exponent.toNat else 1) *
    (if power < 0 then tenPow (-power).toNat else 1)
  let den := (if exponent < 0 then twoPow (-exponent).toNat else 1) *
    (if power ≥ 0 then tenPow power.toNat else 1)
  (⟨num / den, power⟩, ⟨num / den + 1, power⟩)

inductive Tie where
  | up
  | even
deriving DecidableEq, Repr

def Tie.takesBelow : Tie → Nat → Bool
  | up, _ => false
  | even, digits => digits % 2 == 0

/-- Whether the lower of two neighbours stands for the value, and not the upper one: it does if the
middle between them is above the value, or is the value and the tie goes down. -/
def nearerBelow (tie : Tie) (mantissa : Nat) (exponent : Int) (below : Decimal) : Bool :=
  match compareWith (2 * below.digits + 1) below.power (8 * mantissa) exponent with
  | .gt => true
  | .eq => tie.takesBelow below.digits
  | .lt => false

def decimalWith (tie : Tie) (mantissa : Nat) (exponent : Int) (count : Nat) : Option Decimal :=
  let (below, above) := neighbours mantissa exponent count
  match readsBack mantissa exponent below, readsBack mantissa exponent above with
  | true, true => some (if nearerBelow tie mantissa exponent below then below else above)
  | true, false => some below
  | false, true => some above
  | false, false => none

def shortest (tie : Tie) (mantissa : Nat) (exponent : Int) : Decimal :=
  if mantissa = 0 then ⟨0, 0⟩
  else
    ((List.range' 1 17).findSome? (decimalWith tie mantissa exponent)).getD ⟨0, 0⟩

/-- Moves the zeros at the end of the digits into the power; `fuel` bounds their count. -/
def Decimal.strip : Nat → Decimal → Decimal
  | 0, d => d
  | fuel + 1, d =>
    if d.digits ≠ 0 ∧ d.digits % 10 = 0 then Decimal.strip fuel ⟨d.digits / 10, d.power + 1⟩ else d

def zeros (n : Nat) : List Char := List.replicate n '0'

def placePoint (digits : List Char) (point : Int) : List Char :=
  if point ≥ digits.length then digits ++ zeros (point - digits.length).toNat
  else if point > 0 then digits.take point.toNat ++ '.' :: digits.drop point.toNat
  else '0' :: '.' :: (zeros (-point).toNat ++ digits)

def sign (negative : Bool) : List Char := if negative then ['-'] else []

def positional : Double → String
  | infinite negative => String.ofList (sign negative ++ ['i', 'n', 'f'])
  | finite negative mantissa exponent =>
    let d := (shortest .up mantissa exponent).strip 20
    let digits := Nat.toDigits 10 d.digits
    String.ofList (sign negative ++ placePoint digits (digits.length + d.power))

def exponentText (exponent : Int) : List Char :=
  'e' :: (if exponent < 0 then '-' else '+') :: Nat.toDigits 10 exponent.natAbs

/-- The shortest decimal with at least one place after the point when it is written without an
exponent: from `1e-5` up to below `1e16`. Other numbers have one digit before the point. A tie goes
to the even digit. -/
def scientific : Double → String
  | infinite _ => "null"
  | finite negative mantissa exponent =>
    let d := (shortest .even mantissa exponent).strip 20
    let digits := Nat.toDigits 10 d.digits
    let point : Int := digits.length + d.power
    let body :=
      if mantissa = 0 then ['0', '.', '0']
      else if 0 ≤ d.power ∧ point ≤ 16 then placePoint digits point ++ ['.', '0']
      else if -5 < point ∧ point ≤ 16 then placePoint digits point
      else
        let shown := if digits.length ≤ 1 then digits
          else digits.take 1 ++ '.' :: digits.drop 1
        shown ++ exponentText (point - 1)
    String.ofList (sign negative ++ body)

end RestQuery.Double
