import RestQuery.Proofs.Sql.Tie
import RestQuery.Proofs.Sql.Truth
import RestQuery.Sql.Render

/-!
# Conditions read back

The sequence of leaves, connectives and parentheses that a condition is written as is read by the
grammar of the language: AND binds tighter than OR, both associate to the left, and a part in
parentheses is an operand. The grammar leaves no choice, because an evaluation from left to right
that follows any reading arrives at its truth value. The sequence of a condition has a reading with
the truth value of the condition, so this is the only one: no alternative of an OR escapes the
group that it was written in.
-/

namespace RestQuery

namespace Sql

/-- The levels of a condition, the tightest first. -/
inductive Level where
  | operand
  | conjunction
  | disjunction
deriving DecidableEq, Repr

/-- The readings of a sequence of pieces at a level, and the truth value of each. -/
inductive Reads (v : Leaf → Truth) : Level → List Piece → Truth → Prop
  | leaf (l : Leaf) : Reads v .operand [.leaf l] (l.truth v)
  | truth (holds : Bool) : Reads v .operand [.truth holds] (.ofBool holds)
  | group {ps : List Piece} {t : Truth} (inner : Reads v .disjunction ps t) :
    Reads v .operand (.opening :: (ps ++ [.closing])) t
  | operand {ps : List Piece} {t : Truth} (only : Reads v .operand ps t) :
    Reads v .conjunction ps t
  | and {ps qs : List Piece} {s t : Truth} (left : Reads v .conjunction ps s)
    (right : Reads v .operand qs t) : Reads v .conjunction (ps ++ .and :: qs) (s.and t)
  | conjunction {ps : List Piece} {t : Truth} (only : Reads v .conjunction ps t) :
    Reads v .disjunction ps t
  | or {ps qs : List Piece} {s t : Truth} (left : Reads v .disjunction ps s)
    (right : Reads v .conjunction qs t) : Reads v .disjunction (ps ++ .or :: qs) (s.or t)

variable {v : Leaf → Truth}

/-! ### Evaluation from left to right -/

/-- What was read of a group: the alternatives that are complete, and the conjunction that is being
read. -/
structure Frame where
  alternatives : Truth
  factors : Truth

namespace Frame

def start : Frame := ⟨.no, .yes⟩

def value (frame : Frame) : Truth := frame.alternatives.or frame.factors

def put (frame : Frame) (t : Truth) : Frame := { frame with factors := frame.factors.and t }

end Frame

/-- Where an evaluation stands: before or behind an operand of the innermost group, in the groups
that are still open. -/
inductive Standing where
  | before (frame : Frame) (outer : List Frame)
  | behind (frame : Frame) (outer : List Frame)

def Standing.step (v : Leaf → Truth) : Standing → Piece → Option Standing
  | before frame outer, .leaf l => some (behind (frame.put (l.truth v)) outer)
  | before frame outer, .truth holds => some (behind (frame.put (.ofBool holds)) outer)
  | before frame outer, .opening => some (before .start (frame :: outer))
  | behind frame outer, .and => some (before frame outer)
  | behind frame outer, .or => some (before ⟨frame.value, .yes⟩ outer)
  | behind frame (around :: outer), .closing => some (behind (around.put frame.value) outer)
  | _, _ => none

def Standing.run (v : Leaf → Truth) : Standing → List Piece → Option Standing
  | s, [] => some s
  | s, p :: ps => (s.step v p).bind fun s => run v s ps

namespace Standing

theorem run_append (s : Standing) (ps qs : List Piece) :
    s.run v (ps ++ qs) = (s.run v ps).bind fun s => s.run v qs := by
  induction ps generalizing s with
  | nil => rfl
  | cons p ps ih =>
    rw [List.cons_append, run, run]
    cases s.step v p with
    | none => rfl
    | some next => exact ih next

end Standing

open Standing

theorem Truth.and_assoc (r s t : Truth) : (r.and s).and t = r.and (s.and t) :=
  join_assoc true r s t

theorem Truth.or_assoc (r s t : Truth) : (r.or s).or t = r.or (s.or t) :=
  join_assoc false r s t

/-- The evaluation follows a reading: it puts an operand and a conjunction to the factors of the
innermost group, and it ends a disjunction, which begins its group, with the value of this. -/
theorem Reads.run {level : Level} {ps : List Piece} {t : Truth} (h : Reads v level ps t)
    (frame : Frame) (outer : List Frame) (hstart : level = .disjunction → frame.factors = .yes) :
    ∃ frame', (before frame outer).run v ps = some (behind frame' outer) ∧
      (level ≠ .disjunction → frame' = frame.put t) ∧
      frame'.value = frame.alternatives.or (frame.factors.and t) := by
  induction h generalizing frame outer with
  | leaf l => exact ⟨_, rfl, fun _ => rfl, rfl⟩
  | truth holds => exact ⟨_, rfl, fun _ => rfl, rfl⟩
  | @group ps t _ ih =>
    obtain ⟨inner, hrun, -, hvalue⟩ := ih .start (frame :: outer) fun _ => rfl
    have ht : inner.value = t := by
      rw [hvalue]
      cases t <;> rfl
    refine ⟨frame.put t, ?_, fun _ => rfl, rfl⟩
    change ((before Frame.start (frame :: outer)).run v (ps ++ [.closing])) = _
    rw [run_append, hrun, ← ht]
    rfl
  | operand _ ih =>
    obtain ⟨frame', hrun, hput, hvalue⟩ := ih frame outer nofun
    exact ⟨frame', hrun, fun _ => hput nofun, hvalue⟩
  | @and ps qs s t _ _ ihleft ihright =>
    obtain ⟨left, hleft, hput, -⟩ := ihleft frame outer nofun
    obtain ⟨right, hright, hput', -⟩ := ihright left outer nofun
    have heq : right = frame.put (s.and t) := by
      rw [hput' nofun, hput nofun, Frame.put, Frame.put, Frame.put, Truth.and_assoc]
    refine ⟨right, ?_, fun _ => heq, by rw [heq]; rfl⟩
    rw [run_append, hleft]
    exact hright
  | conjunction _ ih =>
    obtain ⟨frame', hrun, -, hvalue⟩ := ih frame outer nofun
    exact ⟨frame', hrun, fun h => absurd rfl h, hvalue⟩
  | @or ps qs s t _ _ ihleft ihright =>
    have hyes : frame.factors = .yes := hstart rfl
    obtain ⟨left, hleft, -, hvalue⟩ := ihleft frame outer fun _ => hyes
    obtain ⟨right, hright, -, hvalue'⟩ := ihright ⟨left.value, .yes⟩ outer nofun
    refine ⟨right, ?_, fun h => absurd rfl h, ?_⟩
    · rw [run_append, hleft]
      exact hright
    · have hunit : ∀ u : Truth, Truth.yes.and u = u := Truth.ofBool_join true
      rw [hvalue', hvalue, hyes, hunit, hunit, hunit, Truth.or_assoc]

/-- A sequence has one truth value at most. -/
theorem Reads.unique {ps : List Piece} {s t : Truth} (hs : Reads v .disjunction ps s)
    (ht : Reads v .disjunction ps t) : s = t := by
  have hvalue : ∀ u : Truth, Truth.no.or (Truth.yes.and u) = u := by
    intro u
    cases u <;> rfl
  obtain ⟨f, hf, -, hfs⟩ := hs.run .start [] fun _ => rfl
  obtain ⟨g, hg, -, hgt⟩ := ht.run .start [] fun _ => rfl
  obtain rfl : f = g := by
    have := hf.symm.trans hg
    simpa using this
  rw [← hvalue s, ← hvalue t]
  exact hfs.symm.trans hgt

/-! ### Readings of conditions -/

def Level.ofChain (conjunctive : Bool) : Level := if conjunctive then conjunction else disjunction

def Shape.level : Shape → Level
  | simple => .operand
  | custom => .operand
  | chain conjunctive => .ofChain conjunctive

theorem Reads.disjunction {level : Level} {ps : List Piece} {t : Truth} (h : Reads v level ps t) :
    Reads v .disjunction ps t := by
  cases level with
  | operand => exact .conjunction (.operand h)
  | conjunction => exact .conjunction h
  | disjunction => exact h

theorem Reads.chain {ps : List Piece} {t : Truth} (h : Reads v .operand ps t)
    (conjunctive : Bool) : Reads v (.ofChain conjunctive) ps t := by
  cases conjunctive with
  | false => exact h.disjunction
  | true => exact .operand h

theorem Reads.connect {conjunctive : Bool} {ps qs : List Piece} {s t : Truth}
    (left : Reads v (.ofChain conjunctive) ps s) (right : Reads v .operand qs t) :
    Reads v (.ofChain conjunctive) (ps ++ Condition.connective conjunctive :: qs)
      (.join conjunctive s t) := by
  cases conjunctive with
  | false => exact .or left (.operand right)
  | true => exact .and left right

namespace Condition

theorem reads_bareOnLeft {c : Condition} {t : Truth} (h : Reads v c.shape.level c.pieces t)
    (conjunctive : Bool) :
    Reads v (.ofChain conjunctive) (parenthesize (bareOnLeft conjunctive c) c.pieces) t := by
  unfold bareOnLeft parenthesize
  cases hshape : c.shape with
  | simple =>
    rw [hshape] at h
    exact h.chain conjunctive
  | custom => exact (Reads.group h.disjunction).chain conjunctive
  | chain k =>
    by_cases hk : k = conjunctive
    · subst hk
      rw [hshape] at h
      simpa [Shape.level] using h
    · simpa [hk] using (Reads.group h.disjunction).chain conjunctive

theorem reads_bareOnRight {c : Condition} {t : Truth} (h : Reads v c.shape.level c.pieces t) :
    Reads v .operand (parenthesize (bareOnRight c) c.pieces) t := by
  unfold bareOnRight parenthesize
  cases hshape : c.shape with
  | simple =>
    rw [hshape] at h
    exact h
  | custom => exact .group h.disjunction
  | chain k => exact .group h.disjunction

def groupShape (conjunctive : Bool) : List Condition → Shape
  | [] => .simple
  | [c] => c.shape
  | _ :: _ :: _ => .chain conjunctive

theorem shape_any (parts : List Condition) : (any parts).shape = groupShape false parts := by
  cases parts with
  | nil => rfl
  | cons c rest =>
    cases rest with
    | nil => rw [shape, groupShape]
    | cons _ _ => rfl

theorem shape_all (parts : List Condition) : (all parts).shape = groupShape true parts := by
  cases parts with
  | nil => rfl
  | cons c rest =>
    cases rest with
    | nil => rw [shape, groupShape]
    | cons _ _ => rfl

mutual

/-- What a condition is written as is read as its truth value, at the level of its shape. -/
theorem reads_pieces : ∀ c : Condition, Reads v c.shape.level c.pieces (c.truth v)
  | leaf l => by
    have hlevel : (leaf l).shape.level = .operand := by
      rw [shape]
      split <;> rfl
    rw [hlevel]
    exact .leaf l
  | any parts => by
    rw [shape_any]
    exact reads_chain false parts
  | all parts => by
    rw [shape_all]
    exact reads_chain true parts

theorem reads_chain (conjunctive : Bool) : ∀ parts : List Condition,
    Reads v (groupShape conjunctive parts).level (chain conjunctive parts)
      (.joinAll conjunctive (truths v parts))
  | [] => .truth conjunctive
  | [c] => by
    rw [truths, truths, Truth.joinAll_singleton]
    exact reads_pieces c
  | c :: next :: rest => by
    rw [truths, Truth.joinAll_cons]
    exact reads_operands conjunctive (next :: rest)
      (reads_bareOnLeft (reads_pieces c) conjunctive)

theorem reads_operands (conjunctive : Bool) : ∀ (parts : List Condition) {ps : List Piece}
    {t : Truth}, Reads v (.ofChain conjunctive) ps t →
    Reads v (.ofChain conjunctive) (ps ++ operands conjunctive parts)
      (.join conjunctive t (.joinAll conjunctive (truths v parts)))
  | [], ps, t, h => by
    rw [operands, List.append_nil, truths, Truth.joinAll_nil, Truth.join_ofBool]
    exact h
  | c :: rest, ps, t, h => by
    have hnext := h.connect (reads_bareOnRight (reads_pieces c))
    have hrest := reads_operands conjunctive rest hnext
    rw [operands, truths, Truth.joinAll_cons, ← Truth.join_assoc]
    simpa only [List.append_assoc, List.cons_append] using hrest

end

end Condition

/-! ### WHERE clauses -/

/-- The WHERE clause of a select is read as one truth value. -/
def Select.WhereReads (dialect : Dialect) (v : Leaf → Truth) (s : Select) (t : Truth) : Prop :=
  ∃ ps : List Piece,
    whereTokens dialect s.conditions = .raw " WHERE " :: ps.flatMap (Piece.tokens dialect) ∧
      ∀ u, Reads v .disjunction ps u ↔ u = t

theorem whereTokens_eq_nil_iff {dialect : Dialect} {conditions : List Condition} :
    whereTokens dialect conditions = [] ↔ conditions = [] := by
  cases conditions <;> simp [whereTokens]

theorem Select.whereReads_conditions (dialect : Dialect) (v : Leaf → Truth) {s : Select}
    (h : s.conditions ≠ []) :
    s.WhereReads dialect v (.conjunction (Condition.truths v s.conditions)) := by
  have hreads := (Condition.reads_pieces (v := v) (.all s.conditions)).disjunction
  refine ⟨(Condition.all s.conditions).pieces, ?_, fun u => ⟨fun hu => hu.unique hreads, ?_⟩⟩
  · rw [whereTokens, if_neg (by simpa using h)]
    rfl
  · rintro rfl
    exact hreads

theorem truths_tieOf (v : Leaf → Truth) (relation : Relation) (related : Entity)
    (keys : List Value) : Condition.truths v (tieOf relation related keys).conditions =
      (relation.keyLeaves related.table keys).map v := by
  rw [tieOf_conditions, Condition.truths_map_leaf]
  unfold Relation.keyLeaves
  cases relation.keyColumn? related.table with
  | none => rfl
  | some key => cases relation.typeTest? related.table <;> rfl

/-- The WHERE clause of a select, of a count and of a select of related rows is read as the
conjunction of its key comparisons and its predicates, however these are nested; without any there
is no clause. -/
theorem where_reads_conjunction (dialect : Dialect) (v : Leaf → Truth) :
    (∀ plan : Plan, ∀ s ∈ [selectOf plan, selectOf plan.forCount],
      (whereTokens dialect s.conditions = [] ↔ plan.predicates = []) ∧
      (plan.predicates ≠ [] →
        s.WhereReads dialect v (.conjunction (Predicate.truths v plan.table plan.predicates)))) ∧
    ∀ (relation : Relation) (related : Entity) (load : EagerLoad) (keys : List Value),
      let s := relationSelect relation related load keys
      let leaves := relation.keyLeaves related.table keys
      (whereTokens dialect s.conditions = [] ↔ leaves = [] ∧ load.predicates = []) ∧
      (leaves ≠ [] ∨ load.predicates ≠ [] →
        s.WhereReads dialect v
          (.conjunction (leaves.map v ++ Predicate.truths v related.table load.predicates))) := by
  constructor
  · intro plan s hs
    have hconditions : s.conditions = Predicate.conditions plan.table plan.predicates := by
      rcases List.mem_cons.mp hs with rfl | hs
      · rfl
      · obtain rfl := List.mem_singleton.mp hs
        rfl
    rw [hconditions, whereTokens_eq_nil_iff, Predicate.conditions_eq_nil_iff]
    refine ⟨Iff.rfl, fun hne => ?_⟩
    rw [← Predicate.truths_conditions, ← hconditions]
    refine s.whereReads_conditions dialect v ?_
    rwa [hconditions, ne_eq, Predicate.conditions_eq_nil_iff]
  · intro relation related load keys s leaves
    have hconditions : s.conditions =
        leaves.map .leaf ++ Predicate.conditions related.table load.predicates := by
      rw [← tieOf_conditions]
      rfl
    have hnil : s.conditions = [] ↔ leaves = [] ∧ load.predicates = [] := by
      rw [hconditions, List.append_eq_nil_iff, List.map_eq_nil_iff,
        Predicate.conditions_eq_nil_iff]
    refine ⟨by rw [whereTokens_eq_nil_iff, hnil], fun hne => ?_⟩
    rw [← truths_tieOf, ← Predicate.truths_conditions, ← Condition.truths_append]
    refine s.whereReads_conditions dialect v ?_
    rw [ne_eq, hnil]
    rintro ⟨hleaves, hpredicates⟩
    exact hne.elim (· hleaves) (· hpredicates)

def scopedPosts : Plan :=
  { Plan.ofTable "posts" with predicates :=
    [.compare "user_id" .eq "1",
      .any [.like "title" "A%" false none, .like "title" "B%" false none]] }

/-- The alternatives of the titles hold nothing for a post of another user. -/
theorem where_reads_scopedPosts :
    scopedPosts.predicates ≠ [] ∧
      (selectOf scopedPosts).WhereReads .sqlite
        (fun | .compare _ _ _ => .no | _ => .yes) .no := by
  have hne : scopedPosts.predicates ≠ [] := List.cons_ne_nil _ _
  exact ⟨hne, ((where_reads_conjunction .sqlite _).1 scopedPosts _ (List.mem_cons_self ..)).2 hne⟩

end Sql

end RestQuery
