/-!
# Decimal digits
-/

namespace RestQuery.Text

def natOfDigits (ds : List Char) : Nat := ds.foldl (fun n d => n * 10 + (d.toNat - 48)) 0

/-- Digits without a superfluous zero in front; there has to be at least one. -/
def isWhole : List Char → Bool
  | [] => false
  | d :: rest => (d :: rest).all Char.isDigit && (d != '0' || rest.isEmpty)

end RestQuery.Text
