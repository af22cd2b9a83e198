import Mathlib.Data.Multiset.Bind
import RestQuery.Proofs.Sql.Engine

/-!
# Rows of a select

The relational meaning of a select. The rows of its table, each with the rows of the second table
that the join finds equal, are kept if the conditions hold together, and are shown by the entries of
the projection. Tables and answers are bags: the same row may be there several times. The order and
the page of a select are not part of this meaning.
-/

namespace RestQuery.Sql

/-- Named values; NULL is `none`. Of two values with the same name the later one counts. -/
abbrev Record (Cell : Type) := List (String × Option Cell)

abbrev Contents (Cell : Type) := String → Multiset (Record Cell)

/-- The records that a column can be looked up in, by the names of their tables. -/
abbrev Scope (Cell : Type) := List (String × Record Cell)

variable {Cell : Type}

namespace Record

def value (record : Record Cell) (name : String) : Option Cell :=
  (record.reverse.lookup name).join

@[simp] theorem value_append_singleton (record : Record Cell) (name : String) (x : Option Cell) :
    value (record ++ [(name, x)]) name = x := by
  simp [value]

theorem value_eq_of_forall {record : Record Cell} {name : String} {x : Option Cell}
    (hmem : (name, x) ∈ record) (h : ∀ y, (name, y) ∈ record → y = x) :
    record.value name = x := by
  unfold value
  cases hfound : record.reverse.lookup name with
  | none =>
    rw [List.lookup_eq_none_iff] at hfound
    have hne := hfound _ (List.mem_reverse.mpr hmem)
    simp at hne
  | some y =>
    obtain ⟨before, after, hrecord, -⟩ := List.lookup_eq_some_iff.mp hfound
    have hy : (name, y) ∈ record := by
      rw [← List.mem_reverse, hrecord]
      simp
    exact h y hy

end Record

namespace Scope

def record (scope : Scope Cell) (table : String) : Record Cell := (scope.lookup table).getD []

def value (scope : Scope Cell) (ref : ColumnRef) : Option Cell :=
  (scope.record ref.table).value ref.column

@[simp] theorem record_cons_self (table : String) (x : Record Cell) (scope : Scope Cell) :
    record ((table, x) :: scope) table = x := by
  simp [record]

@[simp] theorem record_cons_of_ne {table other : String} (h : other ≠ table) (x : Record Cell)
    (scope : Scope Cell) : record ((table, x) :: scope) other = scope.record other := by
  have hne : (other == table) = false := beq_eq_false_iff_ne.mpr h
  rw [record, List.lookup_cons, hne]
  rfl

end Scope

namespace Engine

variable (engine : Engine Cell)

def equality : Option Cell → Option Cell → Truth
  | some x, some y => .ofBool (engine.equal x y)
  | _, _ => .unknown

end Engine

variable (engine : Engine Cell) (contents : Contents Cell)

/-- The scopes in which a row of the second table is joined to a scope. -/
def Join.scopes (join : Join) (scope : Scope Cell) : Multiset (Scope Cell) :=
  ((contents join.table).map fun row => scope ++ [(join.table, row)]).filter fun joined =>
    engine.equality (joined.value join.left) (joined.value join.right) = .yes

def Item.shown (scope : Scope Cell) : Item → Record Cell
  | everyColumn table => scope.record table
  | column ref => [(ref.column, scope.value ref)]
  | labelled ref label => [(label, scope.value ref)]
  | score refs term label => [(label, engine.relevance (refs.map scope.value) term)]

namespace Select

variable (s : Select)

/-- The scopes of a row of the select's own table. -/
def scopesOf (row : Record Cell) : Multiset (Scope Cell) :=
  match s.join with
  | some join => join.scopes engine contents [(s.table, row)]
  | none => {[(s.table, row)]}

def Keeps (scope : Scope Cell) : Prop :=
  Truth.conjunction (Condition.truths (engine.truth scope.value) s.conditions) = .yes

instance (scope : Scope Cell) : Decidable (s.Keeps engine scope) :=
  inferInstanceAs (Decidable (_ = Truth.yes))

def shown (scope : Scope Cell) : Record Cell := s.items.flatMap (Item.shown engine scope)

def rows : Multiset (Record Cell) :=
  (((contents s.table).bind (s.scopesOf engine contents)).filter (s.Keeps engine)).map
    (s.shown engine)

theorem filter_rows (p : Record Cell → Prop) [DecidablePred p] :
    (s.rows engine contents).filter p = (contents s.table).bind fun row =>
      ((s.scopesOf engine contents row).filter fun scope =>
        s.Keeps engine scope ∧ p (s.shown engine scope)).map (s.shown engine) := by
  rw [rows, Multiset.filter_map, Multiset.filter_filter, Multiset.filter_bind, Multiset.map_bind]
  refine Multiset.bind_congr fun row _ => ?_
  congr 1
  exact Multiset.filter_congr fun scope _ => and_comm

end Select

end RestQuery.Sql
