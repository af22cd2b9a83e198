import RestQuery.Proofs.Sql.Engine

/-!
# Columns of predicates

The truth value of a predicate depends on the columns that it constrains, and on nothing else of a
row.
-/

namespace RestQuery

namespace Predicate

mutual

def columns : Predicate → List String
  | compare column _ _ => [column]
  | isNull column _ => [column]
  | like column _ _ _ => [column]
  | isIn column _ _ => [column]
  | search columns _ => columns
  | any parts => columnsOf parts
  | all parts => columnsOf parts
  | always => []
  | never => []

def columnsOf : List Predicate → List String
  | [] => []
  | p :: rest => columns p ++ columnsOf rest

end

theorem mem_columnsOf {parts : List Predicate} {c : String} :
    c ∈ columnsOf parts ↔ ∃ p ∈ parts, c ∈ p.columns := by
  induction parts with
  | nil => simp [columnsOf]
  | cons p rest ih => simp [columnsOf, ih]

section

open Sql

variable {Cell : Type} (engine : Engine Cell) {row row' : ColumnRef → Option Cell} {table : String}

mutual

/-- Rows that agree on the columns of a predicate give it the same truth value. -/
theorem truth_congr : ∀ {p : Predicate},
    (∀ c ∈ p.columns, row (.resolve table c) = row' (.resolve table c)) →
      p.truth (engine.truth row) table = p.truth (engine.truth row') table
  | compare column op literal, h => by
    simp only [truth, Engine.truth, h column (List.mem_singleton_self _)]
  | isNull column negated, h => by
    simp only [truth, Engine.truth, h column (List.mem_singleton_self _)]
  | like column pattern negated escape, h => by
    simp only [truth, Engine.truth, h column (List.mem_singleton_self _)]
  | isIn column literals negated, h => by
    simp only [truth, Engine.truth, h column (List.mem_singleton_self _)]
  | search columns term, h => by
    have hrows : (columns.map (ColumnRef.resolve table)).map row =
        (columns.map (ColumnRef.resolve table)).map row' := by
      rw [List.map_map, List.map_map]
      exact List.map_congr_left h
    simp only [truth, Engine.truth, hrows]
  | any parts, h => by rw [truth, truth, truths_congr h]
  | all parts, h => by rw [truth, truth, truths_congr h]
  | always, _ => rfl
  | never, _ => rfl

theorem truths_congr : ∀ {ps : List Predicate},
    (∀ c ∈ columnsOf ps, row (.resolve table c) = row' (.resolve table c)) →
      truths (engine.truth row) table ps = truths (engine.truth row') table ps
  | [], _ => rfl
  | p :: ps, h => by
    have hp := truth_congr fun c hc => h c (List.mem_append_left _ hc)
    have hps := truths_congr fun c hc => h c (List.mem_append_right _ hc)
    rw [truths, truths, hp, hps]

end

end

end Predicate

end RestQuery
