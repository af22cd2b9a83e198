/-!
# Bounds of machine numbers
-/

namespace RestQuery

/-- The unsigned 64-bit numbers lie below this bound, `2 ^ 64`. -/
def wordBound : Nat := 18446744073709551616

/-- The signed 64-bit numbers lie below this bound, `2 ^ 63`, and not below its negative. -/
def intBound : Nat := 9223372036854775808

/-- The unsigned 16-bit numbers lie below this bound, `2 ^ 16`. -/
def halfBound : Nat := 65536

end RestQuery
