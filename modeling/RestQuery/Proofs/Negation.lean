import RestQuery.Proofs.Sql.Engine

/-!
# Negated filters

A strategy and its negation yield opposite predicates for a value without alternatives and join
alternatives by opposite connectives. So their predicates for any value are opposite on every row:
the negation holds where the other fails, fails where it holds, and is unknown where it is unknown.
-/

namespace RestQuery

open Sql

variable {Cell : Type} {engine : Engine Cell} {row : ColumnRef → Option Cell} {table : String}

def Combinator.isConjunctive : Combinator → Bool
  | or => false
  | and => true

namespace Strategy

theorem truth_build (strategy : Strategy) (v : Leaf → Truth) (column raw : String) :
    (strategy.build column raw).truth v table =
      .joinAll strategy.combinator.isConjunctive
        ((Text.pieces '|' raw).map fun value =>
          (strategy.predicate column value).truth v table) := by
  have hjoined : ∀ ps : List Predicate,
      Predicate.truth v table (match strategy.combinator with | .or => .any ps | .and => .all ps) =
        .joinAll strategy.combinator.isConjunctive (Predicate.truths v table ps) := by
    intro ps
    cases strategy.combinator <;> rfl
  have hmap : (Text.pieces '|' raw).map (fun value =>
      (strategy.predicate column value).truth v table) =
        Predicate.truths v table ((Text.pieces '|' raw).map (strategy.predicate column)) := by
    rw [Predicate.truths_eq_map, List.map_map]
    rfl
  rw [hmap]
  unfold build
  split
  · next p hp =>
    rw [hp, Predicate.truths, Predicate.truths, Truth.joinAll_singleton]
  · exact hjoined _

/-- The predicates of `t` for single alternatives are the negations of those of `s`, and `t` joins
alternatives by the other connective. -/
structure Negates (t s : Strategy) : Prop where
  predicate : ∀ {Cell : Type} (engine : Engine Cell) (row : ColumnRef → Option Cell)
    (table column value : String),
    (t.predicate column value).truth (engine.truth row) table =
      ((s.predicate column value).truth (engine.truth row) table).not
  combinator : t.combinator.isConjunctive = !s.combinator.isConjunctive

theorem Negates.build {t s : Strategy} (h : t.Negates s) (column raw : String) :
    (t.build column raw).truth (engine.truth row) table =
      ((s.build column raw).truth (engine.truth row) table).not := by
  rw [truth_build, truth_build, Truth.not_joinAll, h.combinator, List.map_map]
  congr 1
  exact List.map_congr_left fun value _ => h.predicate engine row table column value

theorem notEqual_negates_equal : notEqual.Negates equal where
  predicate engine row table column value := by
    unfold notEqual equal
    dsimp only
    split
    · exact engine.truth_negated_isNull row _
    · exact engine.truth_ne row _ _
  combinator := rfl

theorem like_negates_like : (like true).Negates (like false) where
  predicate engine row _ _ _ := engine.truth_negated_like row _ _ _
  combinator := rfl

theorem isIn_negates_isIn : (isIn true).Negates (isIn false) where
  predicate engine row table column value := by
    unfold isIn
    dsimp only
    split
    · rfl
    · exact engine.truth_negated_isIn row _ _
  combinator := rfl

end Strategy

namespace Registry

/-- The filters of two suffixes are exact complements: for every column, every value with any
alternatives, and every row. -/
def Complementary (registry : Registry) (negated plain : String) : Prop :=
  ∃ t s, registry.resolve negated = some t ∧ registry.resolve plain = some s ∧
    ∀ {Cell : Type} (engine : Engine Cell) (row : ColumnRef → Option Cell)
      (table column raw : String),
      (t.build column raw).truth (engine.truth row) table =
        ((s.build column raw).truth (engine.truth row) table).not

theorem complementary_of_negates {registry : Registry} {negated plain : String} {t s : Strategy}
    (ht : registry.resolve negated = some t) (hs : registry.resolve plain = some s)
    (h : t.Negates s) : registry.Complementary negated plain :=
  ⟨t, s, ht, hs, fun _ _ _ column raw => h.build column raw⟩

/-- The default suffixes for negations negate. -/
theorem negated_filters_complementary :
    default.Complementary "not" "" ∧ default.Complementary "not-lk" "lk" ∧
      default.Complementary "not-in" "in" :=
  ⟨complementary_of_negates rfl rfl Strategy.notEqual_negates_equal,
    complementary_of_negates rfl rfl Strategy.like_negates_like,
    complementary_of_negates rfl rfl Strategy.isIn_negates_isIn⟩

end Registry

end RestQuery
