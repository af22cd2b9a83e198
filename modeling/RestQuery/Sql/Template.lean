import RestQuery.Text.Digits
import RestQuery.Text.Letter
import RestQuery.Word

/-!
# Templates of custom expressions

A custom expression is a text with marks that stand for values. It is read as words, quoted parts
and single characters, and a mark counts only as a single character, so none is found inside a word
or a quoted part. A mark written twice is that character itself. Where marks carry numbers, the word
behind a mark is its number; a word that is no number is left out together with its mark.
-/

namespace RestQuery.Sql.Template

/-! ### Parts of a template -/

inductive Part where
  | word (text : List Char)
  | quoted (text : List Char)
  | single (c : Char)
deriving DecidableEq, Repr

def startsWord (c : Char) : Bool := Text.isLetter c || c.isDigit

def continuesWord (c : Char) : Bool := startsWord c || c == '_' || c == '$'

def closingOf (c : Char) : Option Char :=
  if c = '\x60' ∨ c = '\x27' ∨ c = '"' then some c
  else if c = '[' then some ']'
  else none

/-- Splits a text behind the quote that closes it, or at its end. A closing quote counts for nothing
after a backslash, and neither does one written twice, except for brackets. -/
def splitQuoted (closing : Char) : Bool → List Char → List Char × List Char
  | _, [] => ([], [])
  | escaped, c :: cs =>
    if !escaped && c == closing then
      match cs with
      | [] => ([c], [])
      | next :: rest =>
        if next = closing ∧ closing ≠ ']' then
          let (inside, after) := splitQuoted closing false rest
          (c :: next :: inside, after)
        else ([c], next :: rest)
    else
      let (inside, after) := splitQuoted closing (!escaped && c == '\\') cs
      (c :: inside, after)

theorem length_splitQuoted_le (closing : Char) (escaped : Bool) (cs : List Char) :
    (splitQuoted closing escaped cs).2.length ≤ cs.length := by
  fun_induction splitQuoted closing escaped cs <;> simp_all <;> omega

def parts : List Char → List Part
  | [] => []
  | c :: cs =>
    if startsWord c then
      .word (c :: cs.takeWhile continuesWord) :: parts (cs.dropWhile continuesWord)
    else
      match closingOf c with
      | some closing =>
        .quoted (c :: (splitQuoted closing false cs).1) :: parts (splitQuoted closing false cs).2
      | none => .single c :: parts cs
termination_by cs => cs.length
decreasing_by
  · exact Nat.lt_succ_of_le (List.dropWhile_sublist _).length_le
  · exact Nat.lt_succ_of_le (length_splitQuoted_le _ _ _)
  · exact Nat.lt_succ_self _

/-! ### Marks -/

structure Mark where
  sign : Char
  numbered : Bool
deriving DecidableEq, Repr

/-- A stretch of text, or the place of a value, counted from 0. -/
inductive Segment where
  | text (content : List Char)
  | value (index : Nat)
deriving DecidableEq, Repr

def Part.segment : Part → Segment
  | word text => .text text
  | quoted text => .text text
  | single c => .text [c]

def Mark.numberWord (mark : Mark) : Part → Option (List Char)
  | .word text => if mark.numbered then some text else none
  | _ => none

/-- The place that a number stands for; numbers count from 1. -/
def placeOf (word : List Char) : List Segment :=
  if word.all Char.isDigit ∧ Text.natOfDigits word < wordBound then
    [.value (Text.natOfDigits word - 1)]
  else []

/-- The segments of a text, where `next` is the place of the next mark without a number. -/
def segmentsFrom (mark : Mark) : Nat → List Part → List Segment
  | _, [] => []
  | next, part :: rest =>
    if part = .single mark.sign then
      match rest with
      | [] => [.value next]
      | follower :: after =>
        if follower = .single mark.sign then part.segment :: segmentsFrom mark next after
        else
          match mark.numberWord follower with
          | some word => placeOf word ++ segmentsFrom mark next after
          | none => .value next :: segmentsFrom mark (next + 1) (follower :: after)
    else part.segment :: segmentsFrom mark next rest

def segments (mark : Mark) (template : List Char) : List Segment :=
  segmentsFrom mark 0 (parts template)

end RestQuery.Sql.Template
