import RestQuery.Sql.OfPlan

/-!
# Three-valued truth of predicates

A comparison of a column with a value holds, fails, or is unknown. Once every comparison has a
truth value, so has every condition: a group that needs one member is their disjunction, a group
that needs all is their conjunction, and the empty groups are false and true. A predicate and the
condition that it becomes have the same truth value, although a group with one member gives way to
that member.
-/

namespace RestQuery

namespace Sql

inductive Truth where
  | no
  | unknown
  | yes
deriving DecidableEq, Repr

namespace Truth

def ofBool (holds : Bool) : Truth := if holds then yes else no

def and : Truth → Truth → Truth
  | no, _ => no
  | _, no => no
  | yes, yes => yes
  | _, _ => unknown

def or : Truth → Truth → Truth
  | yes, _ => yes
  | _, yes => yes
  | no, no => no
  | _, _ => unknown

def not : Truth → Truth
  | no => yes
  | unknown => unknown
  | yes => no

/-- Joins two truth values by AND or by OR. -/
def join (conjunctive : Bool) : Truth → Truth → Truth := if conjunctive then and else or

/-- Joins a list of truth values; the empty one is the unit of the connective. -/
def joinAll (conjunctive : Bool) (truths : List Truth) : Truth :=
  truths.foldr (join conjunctive) (ofBool conjunctive)

def conjunction (truths : List Truth) : Truth := joinAll true truths

def disjunction (truths : List Truth) : Truth := joinAll false truths

theorem join_assoc (conjunctive : Bool) (r s t : Truth) :
    join conjunctive (join conjunctive r s) t = join conjunctive r (join conjunctive s t) := by
  cases conjunctive <;> cases r <;> cases s <;> cases t <;> rfl

@[simp] theorem join_ofBool (conjunctive : Bool) (t : Truth) :
    join conjunctive t (ofBool conjunctive) = t := by
  cases conjunctive <;> cases t <;> rfl

@[simp] theorem ofBool_join (conjunctive : Bool) (t : Truth) :
    join conjunctive (ofBool conjunctive) t = t := by
  cases conjunctive <;> cases t <;> rfl

@[simp]
theorem joinAll_nil (conjunctive : Bool) : joinAll conjunctive [] = ofBool conjunctive := rfl

@[simp] theorem joinAll_cons (conjunctive : Bool) (t : Truth) (truths : List Truth) :
    joinAll conjunctive (t :: truths) = join conjunctive t (joinAll conjunctive truths) := rfl

@[simp] theorem joinAll_singleton (conjunctive : Bool) (t : Truth) : joinAll conjunctive [t] = t :=
  join_ofBool conjunctive t

@[simp] theorem not_ofBool (holds : Bool) : (ofBool holds).not = ofBool (!holds) := by
  cases holds <;> rfl

theorem not_join (conjunctive : Bool) (s t : Truth) :
    (join conjunctive s t).not = join (!conjunctive) s.not t.not := by
  cases conjunctive <;> cases s <;> cases t <;> rfl

/-- The negation of a group joins the negated members by the other connective. -/
theorem not_joinAll (conjunctive : Bool) (truths : List Truth) :
    (joinAll conjunctive truths).not = joinAll (!conjunctive) (truths.map not) := by
  induction truths with
  | nil => exact not_ofBool conjunctive
  | cons t truths ih => rw [joinAll_cons, not_join, ih, List.map_cons, joinAll_cons]

theorem disjunction_eq_yes_iff {truths : List Truth} : disjunction truths = yes ↔ yes ∈ truths := by
  induction truths with
  | nil => simp [disjunction, joinAll, ofBool]
  | cons t truths ih =>
    have hor : or t (disjunction truths) = yes ↔ t = yes ∨ disjunction truths = yes := by
      cases t <;> cases disjunction truths <;> simp [or]
    change or t (disjunction truths) = yes ↔ _
    rw [hor, ih, List.mem_cons, eq_comm]

theorem conjunction_eq_yes_iff {truths : List Truth} :
    conjunction truths = yes ↔ ∀ t ∈ truths, t = yes := by
  induction truths with
  | nil => simp [conjunction, joinAll, ofBool]
  | cons t truths ih =>
    have hand : and t (conjunction truths) = yes ↔ t = yes ∧ conjunction truths = yes := by
      cases t <;> cases conjunction truths <;> simp [and]
    change and t (conjunction truths) = yes ↔ _
    rw [hand, ih, List.forall_mem_cons]

end Truth

variable (v : Leaf → Truth)

/-- The truth value of a leaf, where every comparison has the value that `v` gives it. -/
def Leaf.truth : Leaf → Truth
  | constant holds => .ofBool holds
  | comparison => v comparison

namespace Condition

mutual

def truth : Condition → Truth
  | leaf l => l.truth v
  | any parts => .disjunction (truths parts)
  | all parts => .conjunction (truths parts)

def truths : List Condition → List Truth
  | [] => []
  | c :: rest => truth c :: truths rest

end

theorem truths_append (cs more : List Condition) :
    truths v (cs ++ more) = truths v cs ++ truths v more := by
  induction cs with
  | nil => rfl
  | cons c cs ih => rw [List.cons_append, truths, truths, ih, List.cons_append]

theorem truths_map_leaf (leaves : List Leaf) :
    truths v (leaves.map leaf) = leaves.map (Leaf.truth v) := by
  induction leaves with
  | nil => rfl
  | cons l leaves ih => rw [List.map_cons, truths, ih, truth, List.map_cons]

theorem truth_asMember (c : Condition) : c.asMember.truth v = c.truth v := by
  unfold asMember
  split
  · exact (Truth.joinAll_singleton false _).symm
  · exact (Truth.joinAll_singleton true _).symm
  · rfl

end Condition

end Sql

namespace Predicate

open Sql

section

variable (v : Leaf → Truth) (table : String)

mutual

/-- The truth value of a predicate on rows of `table`, where every comparison has the value that `v`
gives it. -/
def truth : Predicate → Truth
  | compare column op literal => v (.compare (.resolve table column) op (.ofLiteral literal))
  | isNull column negated => v (.isNull (.resolve table column) negated)
  | like column pattern negated escape =>
    v (.like (.resolve table column) pattern negated escape)
  | isIn column literals negated =>
    v (.isIn (.resolve table column) (literals.map .ofLiteral) negated)
  | search columns term => v (.fullText (columns.map (.resolve table)) term)
  | any parts => .disjunction (truths parts)
  | all parts => .conjunction (truths parts)
  | always => .yes
  | never => .no

def truths : List Predicate → List Truth
  | [] => []
  | p :: rest => truth p :: truths rest

end

mutual

theorem truth_condition (p : Predicate) : (condition table p).truth v = p.truth v table := by
  cases p with
  | any parts => exact congrArg Truth.disjunction (truths_conditions parts)
  | all parts => exact congrArg Truth.conjunction (truths_conditions parts)
  | _ => rfl

theorem truths_conditions (ps : List Predicate) :
    Condition.truths v (conditions table ps) = truths v table ps := by
  cases ps with
  | nil => rfl
  | cons p rest =>
    rw [conditions, Condition.truths, Condition.truth_asMember, truth_condition p,
      truths_conditions rest, truths]

end

end

theorem truths_eq_map (v : Leaf → Truth) (table : String) (ps : List Predicate) :
    truths v table ps = ps.map (truth v table) := by
  induction ps with
  | nil => rfl
  | cons p ps ih => rw [truths, ih, List.map_cons]

theorem conditions_eq_nil_iff {table : String} {ps : List Predicate} :
    conditions table ps = [] ↔ ps = [] := by
  cases ps <;> simp [conditions]

end Predicate

end RestQuery
