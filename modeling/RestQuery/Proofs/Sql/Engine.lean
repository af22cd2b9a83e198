import RestQuery.Proofs.Sql.Truth
import RestQuery.Proofs.Text.Like

/-!
# Comparisons on a row

An engine orders what it stores against what is bound, reads it as text, and decides which
characters are the same and which texts a term is found in. The rest is the language: a comparison
with NULL is unknown, `<>`, `NOT LIKE` and `NOT IN` are negations, and a value is in a list if it
equals one of its members. Nothing is in the empty list, not even NULL.
-/

namespace RestQuery

def Comparison.holds : Comparison → Ordering → Bool
  | eq, found => found == .eq
  | ne, found => found != .eq
  | lt, found => found == .lt
  | gt, found => found == .gt
  | le, found => found != .gt
  | ge, found => found != .lt

namespace Sql

/-- What differs from one engine to the next, with its values of type `Cell`. -/
structure Engine (Cell : Type) where
  /-- How a stored value stands to a bound one. -/
  order : Cell → Value → Ordering
  equal : Cell → Cell → Bool
  /-- What a pattern is matched against. -/
  text : Cell → String
  same : Char → Char → Bool
  finds : List (Option Cell) → String → Truth
  relevance : List (Option Cell) → String → Option Cell

/-- A test of a value, of which nothing is known if the value is NULL. -/
def Truth.ofTest {α : Type} (test : α → Bool) (value : Option α) : Truth :=
  value.elim unknown fun x => ofBool (test x)

def Truth.negatedIf (negated : Bool) (t : Truth) : Truth := if negated then t.not else t

namespace Engine

variable {Cell : Type} (engine : Engine Cell) (row : ColumnRef → Option Cell)

def compare (cell : Option Cell) (op : Comparison) (value : Value) : Truth :=
  .ofTest (fun stored => op.holds (engine.order stored value)) cell

def truth : Leaf → Truth
  | .compare ref op value => engine.compare (row ref) op value
  | .isNull ref negated => .negatedIf negated (.ofBool (row ref).isNone)
  | .like ref pattern negated escape =>
    .negatedIf negated <| .ofTest
      (fun stored => Like.isInstance engine.same escape pattern (engine.text stored)) (row ref)
  | .isIn ref values negated =>
    .negatedIf negated (.disjunction (values.map (engine.compare (row ref) .eq)))
  | .fullText refs term => engine.finds (refs.map row) term
  | .constant holds => .ofBool holds

theorem truth_negated_like (ref : ColumnRef) (pattern : String) (escape : Option Char) :
    engine.truth row (.like ref pattern true escape) =
      (engine.truth row (.like ref pattern false escape)).not := rfl

theorem truth_negated_isNull (ref : ColumnRef) :
    engine.truth row (.isNull ref true) = (engine.truth row (.isNull ref false)).not := rfl

theorem truth_negated_isIn (ref : ColumnRef) (values : List Value) :
    engine.truth row (.isIn ref values true) = (engine.truth row (.isIn ref values false)).not :=
  rfl

theorem truth_ne (ref : ColumnRef) (value : Value) :
    engine.truth row (.compare ref .ne value) =
      (engine.truth row (.compare ref .eq value)).not := by
  change Truth.ofTest _ (row ref) = (Truth.ofTest _ (row ref)).not
  cases row ref with
  | none => rfl
  | some stored => exact (Truth.not_ofBool _).symm

theorem truth_like_eq_yes_iff {ref : ColumnRef} {pattern : String} {escape : Option Char} :
    engine.truth row (.like ref pattern false escape) = .yes ↔
      ∃ stored, row ref = some stored ∧
        Like.isInstance engine.same escape pattern (engine.text stored) = true := by
  change Truth.ofTest _ (row ref) = .yes ↔ _
  cases row ref with
  | none => simp [Truth.ofTest]
  | some stored => simp [Truth.ofTest, Truth.ofBool]

theorem truth_isIn_eq_yes_iff {ref : ColumnRef} {values : List Value} :
    engine.truth row (.isIn ref values false) = .yes ↔
      ∃ stored, row ref = some stored ∧ ∃ value ∈ values, engine.order stored value = .eq := by
  change Truth.disjunction (values.map (engine.compare (row ref) .eq)) = .yes ↔ _
  rw [Truth.disjunction_eq_yes_iff, List.mem_map]
  cases row ref with
  | none => simp [compare, Truth.ofTest]
  | some stored => simp [compare, Truth.ofTest, Truth.ofBool, Comparison.holds]

end Engine

end Sql

end RestQuery
