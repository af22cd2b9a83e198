/-!
# Cutting text into pieces

Blank characters, trimming, and splitting at separators. The functions work on lists of
characters; their `String` forms only convert. A list written with commas is read by `listed`,
which forgives blanks around its members and drops the empty ones.
-/

namespace RestQuery.Text

/-- The characters of the Unicode property `White_Space`. -/
def isBlank (c : Char) : Bool :=
  let n := c.toNat
  (9 ≤ n && n ≤ 13) || n == 0x20 || n == 0x85 || n == 0xA0 || n == 0x1680 ||
    (0x2000 ≤ n && n ≤ 0x200A) || n == 0x2028 || n == 0x2029 || n == 0x202F || n == 0x205F ||
    n == 0x3000

def trimChars (cs : List Char) : List Char :=
  ((cs.dropWhile isBlank).reverse.dropWhile isBlank).reverse

def trim (s : String) : String := String.ofList (trimChars s.toList)

/-- The pieces between the characters that satisfy `p`; there is always at least one. -/
def splitWhere (p : Char → Bool) : List Char → List (List Char)
  | [] => [[]]
  | c :: cs =>
    if p c then [] :: splitWhere p cs
    else
      match splitWhere p cs with
      | [] => [[c]]
      | piece :: pieces => (c :: piece) :: pieces

theorem splitWhere_ne_nil (p : Char → Bool) (cs : List Char) : splitWhere p cs ≠ [] := by
  induction cs with
  | nil => simp [splitWhere]
  | cons c cs ih =>
    unfold splitWhere
    split
    · simp
    · split <;> simp

def pieces (separator : Char) (s : String) : List String :=
  (splitWhere (· == separator) s.toList).map String.ofList

/-- The members of a comma-separated list, trimmed, without the empty ones. -/
def listed (s : String) : List String :=
  ((pieces ',' s).map trim).filter (· ≠ "")

/-- The maximal runs of characters that are not blank. -/
def words (s : String) : List String :=
  ((splitWhere isBlank s.toList).filter (· ≠ [])).map String.ofList

def cutFirstChars (separator : Char) : List Char → Option (List Char × List Char)
  | [] => none
  | c :: cs =>
    if c = separator then some ([], cs)
    else (cutFirstChars separator cs).map fun (before, after) => (c :: before, after)

def cutLastChars (separator : Char) : List Char → Option (List Char × List Char)
  | [] => none
  | c :: cs =>
    match cutLastChars separator cs with
    | some (before, after) => some (c :: before, after)
    | none => if c = separator then some ([], cs) else none

def cutFirst (separator : Char) (s : String) : Option (String × String) :=
  (cutFirstChars separator s.toList).map fun (before, after) =>
    (String.ofList before, String.ofList after)

def cutLast (separator : Char) (s : String) : Option (String × String) :=
  (cutLastChars separator s.toList).map fun (before, after) =>
    (String.ofList before, String.ofList after)

def afterLead : List Char → List Char → Option (List Char)
  | [], cs => some cs
  | _ :: _, [] => none
  | l :: lead, c :: cs => if l = c then afterLead lead cs else none

def stripLead (lead s : String) : Option String :=
  (afterLead lead.toList s.toList).map String.ofList

def stripEnding (ending s : String) : Option String :=
  (afterLead ending.toList.reverse s.toList.reverse).map fun cs => String.ofList cs.reverse

theorem afterLead_eq_some_iff {lead cs rest : List Char} :
    afterLead lead cs = some rest ↔ cs = lead ++ rest := by
  induction lead generalizing cs with
  | nil => simp [afterLead, eq_comm]
  | cons l lead ih =>
    cases cs with
    | nil => simp [afterLead]
    | cons c cs =>
      by_cases h : l = c
      · subst h; simp [afterLead, ih]
      · have h' : ¬ c = l := fun e => h e.symm
        simp [afterLead, h, h']

theorem stripLead_eq_some_iff {lead s rest : String} :
    stripLead lead s = some rest ↔ s = lead ++ rest := by
  unfold stripLead
  rw [Option.map_eq_some_iff]
  simp only [afterLead_eq_some_iff]
  constructor
  · rintro ⟨cs, hcs, rfl⟩
    rw [← String.toList_inj, hcs]
    simp
  · rintro rfl
    exact ⟨rest.toList, by simp, by simp⟩

theorem stripEnding_eq_some_iff {ending s front : String} :
    stripEnding ending s = some front ↔ s = front ++ ending := by
  unfold stripEnding
  rw [Option.map_eq_some_iff]
  simp only [afterLead_eq_some_iff]
  constructor
  · rintro ⟨cs, hcs, rfl⟩
    rw [← String.toList_inj, ← List.reverse_inj, hcs]
    simp
  · rintro rfl
    exact ⟨front.toList.reverse, by simp, by simp⟩

end RestQuery.Text
