/-!
# Glob patterns of allow-lists

A pattern is matched against a whole path. `*` stands for any run of characters on one line, every
other character for itself. The pattern that is a single `*` allows every path, and a pattern with
stars whose automaton would be too large allows none. The path is read from its end, and a row tells
for each end of the pattern whether it accepts the part read so far, so the work is the product of
the two lengths.
-/

namespace RestQuery.Glob

def rowOfNothing : List Char → List Bool
  | [] => [true]
  | p :: pattern =>
    let row := rowOfNothing pattern
    (p == '*' && row.headD false) :: row

def rowBefore (c : Char) : List Char → List Bool → List Bool
  | [], _ => [false]
  | p :: pattern, row =>
    let below := rowBefore c pattern row.tail
    (if p = '*' then below.headD false || (c != '\n' && row.headD false)
      else p == c && row.tail.headD false) :: below

/-- For each end of the pattern, the longest first, whether it accepts the text. -/
def rowOf (pattern : List Char) : List Char → List Bool
  | [] => rowOfNothing pattern
  | c :: text => rowBefore c pattern (rowOf pattern text)

def accepts (pattern text : List Char) : Bool := (rowOf pattern text).headD false

/-- The octets that the automaton of a pattern takes up: 1040 for a star and 32 for each octet of
another character, beside a fixed part. -/
def automatonSize (pattern : List Char) : Nat :=
  pattern.foldl (fun size c => size + if c = '*' then 1040 else 32 * c.utf8Size) 128

def automatonLimit : Nat := 10485760

/-- Whether a pattern can be used. One without a star needs no automaton. -/
def isUsable (pattern : List Char) : Bool :=
  !pattern.contains '*' || automatonSize pattern ≤ automatonLimit

def isAllowed (path : String) (patterns : List String) : Bool :=
  patterns.any fun pattern =>
    pattern == "*" || (isUsable pattern.toList && accepts pattern.toList path.toList)

end RestQuery.Glob
