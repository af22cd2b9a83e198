import RestQuery.Proofs.Sql.Tie
import RestQuery.Sql.Render

/-!
# Statements without their values

The outline of a plan keeps its columns, groups and clauses and the number of the entries of every
list, and forgets what is compared, matched and counted. The text with placeholders can be computed
from the outline, since every value stands behind a placeholder of its own. So whatever a request
or a row puts in the place of a value, it leaves the text as it was.
-/

namespace RestQuery

namespace Predicate

mutual

/-- The predicate without its values. -/
def outline : Predicate → Predicate
  | compare column op _ => compare column op ""
  | isNull column negated => isNull column negated
  | like column _ negated escape => like column "" negated escape
  | isIn column literals negated => isIn column (literals.map fun _ => "") negated
  | search columns _ => search columns ""
  | any parts => any (outlines parts)
  | all parts => all (outlines parts)
  | always => always
  | never => never

def outlines : List Predicate → List Predicate
  | [] => []
  | p :: rest => outline p :: outlines rest

end

end Predicate

def Score.outline (score : Score) : Score := { score with term := "" }

def EagerLoad.outline (load : EagerLoad) : EagerLoad :=
  { load with predicates := Predicate.outlines load.predicates }

/-- The plan without its values: the literals and patterns of its predicates, the term of its score
and the numbers of its page. -/
def Plan.outline (plan : Plan) : Plan :=
  { plan with
    score := plan.score.map Score.outline
    predicates := Predicate.outlines plan.predicates
    limit := plan.limit.map fun _ => 0
    offset := plan.offset.map fun _ => 0
    loads := plan.loads.map fun (path, load) => (path, load.outline) }

namespace Sql

/-- What stands for a value in an outline. -/
def Value.blank : Value := .text ""

theorem Value.ofLiteral_empty : Value.ofLiteral "" = .blank := by decide +kernel

def Token.outline : Token → Token
  | bound _ => bound .blank
  | token => token

def Leaf.outline : Leaf → Leaf
  | compare ref op _ => compare ref op .blank
  | like ref _ negated escape => like ref "" negated escape
  | isIn ref values negated => isIn ref (values.map fun _ => .blank) negated
  | fullText columns _ => fullText columns ""
  | l => l

def Piece.outline : Piece → Piece
  | leaf l => leaf l.outline
  | p => p

def Item.outline : Item → Item
  | score columns _ label => score columns "" label
  | item => item

namespace Condition

mutual

def outline : Condition → Condition
  | leaf l => leaf l.outline
  | any parts => any (outlines parts)
  | all parts => all (outlines parts)

def outlines : List Condition → List Condition
  | [] => []
  | c :: rest => outline c :: outlines rest

end

end Condition

def Select.outline (s : Select) : Select :=
  { s with
    items := s.items.map Item.outline
    conditions := Condition.outlines s.conditions
    limit := s.limit.map fun _ => 0
    offset := s.offset.map fun _ => 0 }

/-! ### The text of an outline -/

theorem parameterized_outline (dialect : Dialect) (n : Nat) (ts : List Token) :
    parameterized dialect n (ts.map Token.outline) = parameterized dialect n ts := by
  induction ts generalizing n with
  | nil => rfl
  | cons t ts ih =>
    rw [List.map_cons]
    cases t <;> simp only [Token.outline, parameterized, ih]

theorem map_commaSeparated {f : Token → Token} (hf : f (.raw ", ") = .raw ", ")
    (lists : List (List Token)) :
    (commaSeparated lists).map f = commaSeparated (lists.map fun ts => ts.map f) := by
  induction lists with
  | nil => rfl
  | cons ts rest ih =>
    cases rest with
    | nil => rfl
    | cons next rest =>
      rw [commaSeparated, List.map_append, List.map_cons, ih, hf]
      rfl

section

variable (dialect : Dialect)

/-- Two lists of tokens differ only in the values behind their placeholders. -/
def SameText (ts us : List Token) : Prop := ts.map Token.outline = us.map Token.outline

variable {dialect}

theorem SameText.parameterized_eq {ts us : List Token} (h : SameText ts us) (n : Nat) :
    parameterized dialect n ts = parameterized dialect n us := by
  rw [← parameterized_outline, h, parameterized_outline]

theorem SameText.append {ts us ts' us' : List Token} (h : SameText ts us)
    (h' : SameText ts' us') : SameText (ts ++ ts') (us ++ us') := by
  unfold SameText
  rw [List.map_append, List.map_append, h, h']

theorem SameText.commaSeparated {α : Type} {f g : α → List Token} {items : List α}
    (h : ∀ item ∈ items, SameText (f item) (g item)) :
    SameText (commaSeparated (items.map f)) (commaSeparated (items.map g)) := by
  unfold SameText
  rw [map_commaSeparated rfl, map_commaSeparated rfl, List.map_map, List.map_map]
  exact congrArg _ (List.map_congr_left h)

theorem SameText.flatMap {α : Type} {f g : α → List Token} {items : List α}
    (h : ∀ item ∈ items, SameText (f item) (g item)) :
    SameText (items.flatMap f) (items.flatMap g) := by
  unfold SameText
  rw [List.map_flatMap, List.map_flatMap]
  exact congrArg List.flatten (List.map_congr_left h)

variable (dialect)

theorem sameText_fullTextTokens (columns : List ColumnRef) (term term' : String) :
    SameText (fullTextTokens dialect columns term) (fullTextTokens dialect columns term') := by
  unfold SameText fullTextTokens fillTemplate
  rw [List.map_filterMap, List.map_filterMap]
  congr 1
  funext segment
  cases segment with
  | text content => rfl
  | value index => cases index <;> rfl

theorem Leaf.sameText_outline (l : Leaf) :
    SameText (l.outline.tokens dialect) (l.tokens dialect) := by
  cases l with
  | compare ref op value => simp [SameText, outline, tokens, Token.outline]
  | isNull ref negated => rfl
  | like ref pattern negated escape => simp [SameText, outline, tokens, Token.outline]
  | isIn ref values negated =>
    cases values with
    | nil => rfl
    | cons value values =>
      have hentries : SameText
          (Sql.commaSeparated ((value :: values).map fun _ => [.bound .blank]))
          (Sql.commaSeparated ((value :: values).map fun value => [.bound value])) :=
        .commaSeparated fun _ _ => rfl
      simpa [SameText, outline, tokens, List.map_map, Function.comp_def] using hentries
  | fullText columns term => exact sameText_fullTextTokens dialect columns "" term
  | constant holds => rfl

theorem Piece.sameText_outline (p : Piece) :
    SameText (p.outline.tokens dialect) (p.tokens dialect) := by
  cases p with
  | leaf l => exact l.sameText_outline dialect
  | _ => rfl

theorem Item.sameText_outline (item : Item) :
    SameText (item.outline.tokens dialect) (item.tokens dialect) := by
  cases item with
  | score columns term label => exact (sameText_fullTextTokens dialect columns "" term).append rfl
  | _ => rfl

namespace Condition

variable {dialect}

mutual

theorem shape_outline : ∀ c : Condition, c.outline.shape = c.shape
  | leaf l => by cases l <;> rfl
  | any [] => rfl
  | all [] => rfl
  | any [c] => by
    rw [outline, outlines, outlines, shape, shape]
    exact shape_outline c
  | all [c] => by
    rw [outline, outlines, outlines, shape, shape]
    exact shape_outline c
  | any (_ :: _ :: _) => rfl
  | all (_ :: _ :: _) => rfl

end

@[simp] theorem map_parenthesize (bare : Bool) (ps : List Piece) :
    (parenthesize bare ps).map Piece.outline = parenthesize bare (ps.map Piece.outline) := by
  cases bare <;> simp [parenthesize, Piece.outline]

@[simp] theorem outline_connective (conjunctive : Bool) :
    (connective conjunctive).outline = connective conjunctive := by
  cases conjunctive <;> rfl

@[simp] theorem bareOnLeft_outline (conjunctive : Bool) (c : Condition) :
    bareOnLeft conjunctive c.outline = bareOnLeft conjunctive c := by
  unfold bareOnLeft
  rw [shape_outline]

@[simp] theorem bareOnRight_outline (c : Condition) : bareOnRight c.outline = bareOnRight c := by
  unfold bareOnRight
  rw [shape_outline]

mutual

theorem pieces_outline : ∀ c : Condition, c.outline.pieces = c.pieces.map Piece.outline
  | leaf _ => rfl
  | any parts => chain_outlines false parts
  | all parts => chain_outlines true parts

theorem chain_outlines (conjunctive : Bool) : ∀ parts : List Condition,
    chain conjunctive (outlines parts) = (chain conjunctive parts).map Piece.outline
  | [] => rfl
  | [c] => pieces_outline c
  | c :: next :: rest => by
    rw [chain, List.map_append, map_parenthesize, ← pieces_outline c,
      ← operands_outlines conjunctive (next :: rest), ← bareOnLeft_outline]
    rfl

theorem operands_outlines (conjunctive : Bool) : ∀ parts : List Condition,
    operands conjunctive (outlines parts) = (operands conjunctive parts).map Piece.outline
  | [] => rfl
  | c :: rest => by
    rw [operands, List.map_cons, List.map_append, map_parenthesize, ← pieces_outline c,
      ← operands_outlines conjunctive rest, ← bareOnRight_outline, outline_connective]
    rfl

end

theorem sameText_outline (c : Condition) :
    SameText (c.outline.tokens dialect) (c.tokens dialect) := by
  unfold Condition.tokens
  rw [pieces_outline, List.flatMap_map]
  exact .flatMap fun p _ => p.sameText_outline dialect

theorem outline_asMember (c : Condition) : c.asMember.outline = c.outline.asMember := by
  match c with
  | leaf _ => rfl
  | any [] | all [] | any [c] | all [c] | any (_ :: _ :: _) | all (_ :: _ :: _) => rfl

theorem outlines_append (cs more : List Condition) :
    outlines (cs ++ more) = outlines cs ++ outlines more := by
  induction cs with
  | nil => rfl
  | cons c cs ih => rw [List.cons_append, outlines, outlines, ih, List.cons_append]

end Condition

theorem sameText_whereTokens (conditions : List Condition) :
    SameText (whereTokens dialect (Condition.outlines conditions))
      (whereTokens dialect conditions) := by
  cases conditions with
  | nil => rfl
  | cons c rest =>
    have hkeyword : SameText [.raw " WHERE "] [.raw " WHERE "] := rfl
    exact hkeyword.append (Condition.sameText_outline (.all (c :: rest)))

theorem sameText_countTokens (keyword : String) (number : Option Nat) :
    SameText (countTokens keyword (number.map fun _ => 0)) (countTokens keyword number) := by
  cases number <;> rfl

theorem Select.sameText_outline (s : Select) :
    SameText (s.outline.tokens dialect) (s.tokens dialect) := by
  have hitems : SameText
      (commaSeparated (s.outline.items.map (Item.tokens dialect)))
      (commaSeparated (s.items.map (Item.tokens dialect))) := by
    rw [outline, List.map_map]
    exact .commaSeparated fun item _ => item.sameText_outline dialect
  have hkeyword : SameText [.raw "SELECT "] [.raw "SELECT "] := rfl
  refine hkeyword.append (((((hitems.append rfl).append rfl).append ?_).append rfl).append ?_
    |>.append ?_)
  · exact sameText_whereTokens dialect s.conditions
  · exact sameText_countTokens " LIMIT " s.limit
  · exact sameText_countTokens " OFFSET " s.offset

end

/-! ### Outlines of plans and of selects -/

@[simp] theorem scoreItem_outline (table : String) (score : Score) :
    scoreItem table score.outline = (scoreItem table score).outline := rfl

theorem columnItem_outline (table : String) (score : Option Score) (column : String) :
    columnItem table (score.map Score.outline) column =
      (columnItem table score column).outline := by
  cases score with
  | none => rfl
  | some score =>
    have hlabel : score.outline.label = score.label := rfl
    by_cases h : score.label = column
    · simp [columnItem, hlabel, h]
    · simp [columnItem, hlabel, h, Item.outline]

theorem projection_outline (table : String) (columns : List String) (score : Option Score) :
    projection table columns (score.map Score.outline) =
      (projection table columns score).map Item.outline := by
  have hshown : (if columns.isEmpty then [.everyColumn table]
      else columns.map (columnItem table (score.map Score.outline))) =
      (if columns.isEmpty then [.everyColumn table]
        else columns.map (columnItem table score)).map Item.outline := by
    split
    · rfl
    · rw [List.map_map]
      exact List.map_congr_left fun column _ => columnItem_outline table score column
  unfold projection
  rw [hshown]
  cases score with
  | none => rfl
  | some score =>
    change (if columns.contains score.label then _ else _) = _
    dsimp only
    split
    · rfl
    · rw [List.map_append]
      rfl

@[simp] theorem ordersOf_outline (table : String) (score : Option Score) (orders : List Order) :
    ordersOf table (score.map Score.outline) orders = ordersOf table score orders := by
  cases score <;> rfl

end Sql

open Sql

namespace Predicate

variable (table : String)

mutual

theorem condition_outline : ∀ p : Predicate,
    condition table p.outline = (condition table p).outline
  | compare column op literal => by
    rw [outline, condition, Value.ofLiteral_empty]
    rfl
  | isIn column literals negated => by
    rw [outline, condition, List.map_map, Function.comp_def, Value.ofLiteral_empty, condition,
      Condition.outline, Leaf.outline, List.map_map]
    rfl
  | any parts => congrArg Condition.any (conditions_outlines parts)
  | all parts => congrArg Condition.all (conditions_outlines parts)
  | isNull _ _ | like _ _ _ _ | search _ _ | always | never => rfl

theorem conditions_outlines : ∀ ps : List Predicate,
    conditions table (outlines ps) = Condition.outlines (conditions table ps)
  | [] => rfl
  | p :: rest => by
    rw [outlines, conditions, condition_outline p, conditions_outlines rest,
      ← Condition.outline_asMember]
    rfl

end

end Predicate

namespace Sql

theorem selectOf_outline (plan : Plan) : selectOf plan.outline = (selectOf plan).outline := by
  unfold selectOf Select.outline
  simp only [Plan.outline, projection_outline, Predicate.conditions_outlines, ordersOf_outline]

theorem tieOf_outline (relation : Relation) (related : Entity) (keys : List Value) :
    tieOf relation.outline related (keys.map fun _ => .blank) =
      { tieOf relation related keys with
        conditions := Condition.outlines (tieOf relation related keys).conditions } := by
  obtain ⟨-, htie⟩ | ⟨join, key, -, htie⟩ := tieOf_cases relation related
  · rw [(htie _).1, (htie _).2]
    rfl
  · rw [(htie _).1, (htie _).2]
    cases relation.typeTest? related.table <;> rfl

theorem map_outline_keyItem (relation : Relation) (related : Entity) (keys : List Value) :
    (tieOf relation related keys).keyItem.toList.map Item.outline =
      (tieOf relation related keys).keyItem.toList := by
  have hsame : ∀ item ∈ (tieOf relation related keys).keyItem.toList, item.outline = item := by
    intro item hitem
    obtain ⟨ref, label, rfl⟩ := labelled_of_mem_keyItem (Option.mem_toList.mp hitem)
    rfl
  exact (List.map_congr_left hsame).trans (List.map_id _)

theorem relationSelect_outline (relation : Relation) (related : Entity) (load : EagerLoad)
    (keys : List Value) :
    relationSelect relation.outline related load.outline (keys.map fun _ => .blank) =
      (relationSelect relation related load keys).outline := by
  have hshown := projection_outline related.table (load.columns.getD []) none
  have horders := ordersOf_outline related.table none load.orders
  unfold relationSelect Select.outline
  simp only [EagerLoad.outline, tieOf_outline, Predicate.conditions_outlines,
    Condition.outlines_append, List.map_append, map_outline_keyItem, Option.map_none] at hshown ⊢
  rw [← hshown]

theorem Select.sql_eq_of_outline {s s' : Select} (h : s.outline = s'.outline)
    (dialect : Dialect) :
    (Statement.select s).sql dialect = (Statement.select s').sql dialect ∧
      (Statement.count s).sql dialect = (Statement.count s').sql dialect := by
  have hsame : SameText (s.tokens dialect) (s'.tokens dialect) := by
    have hs := s.sameText_outline dialect
    rw [h] at hs
    exact hs.symm.trans (s'.sameText_outline dialect)
  constructor
  · exact congrArg String.ofList (hsame.parameterized_eq 1)
  · have hcount : SameText ((Statement.count s).tokens dialect)
        ((Statement.count s').tokens dialect) :=
      (SameText.append rfl hsame).append rfl
    exact congrArg String.ofList (hcount.parameterized_eq 1)

/-- Plans with one outline have one text, of the select and of the count; and so have the selects of
related rows for as many keys, if relations and loads have one outline. -/
theorem sql_eq_of_outline_eq (dialect : Dialect) :
    (∀ plan plan' : Plan, plan.outline = plan'.outline →
      (Statement.ofPlan plan).sql dialect = (Statement.ofPlan plan').sql dialect ∧
        (Statement.countOf plan).sql dialect = (Statement.countOf plan').sql dialect) ∧
    ∀ (relation relation' : Relation) (related : Entity) (load load' : EagerLoad)
      (keys keys' : List Value), relation.outline = relation'.outline →
      load.outline = load'.outline → keys.length = keys'.length →
      (Statement.ofRelation relation related load keys).sql dialect =
        (Statement.ofRelation relation' related load' keys').sql dialect := by
  constructor
  · intro plan plan' h
    have hselect : (selectOf plan).outline = (selectOf plan').outline := by
      rw [← selectOf_outline, h, selectOf_outline]
    have hcount : (selectOf plan.forCount).outline = (selectOf plan'.forCount).outline := by
      have hforCount : plan.forCount.outline = plan'.forCount.outline := congrArg Plan.forCount h
      rw [← selectOf_outline, hforCount, selectOf_outline]
    exact ⟨(Select.sql_eq_of_outline hselect dialect).1,
      (Select.sql_eq_of_outline hcount dialect).2⟩
  · intro relation relation' related load load' keys keys' hrelation hload hkeys
    have hblank : (keys.map fun _ => Value.blank) = keys'.map fun _ => Value.blank := by
      rw [List.map_const', List.map_const', hkeys]
    refine (Select.sql_eq_of_outline ?_ dialect).1
    rw [← relationSelect_outline, hrelation, hload, hblank, relationSelect_outline]

/-- Posts with a given name or one of two states. -/
def namedPosts (name state : String) (limit : Nat) : Plan :=
  { Plan.ofTable "posts" with
    predicates := [.any [.compare "name" .eq name, .isIn "state" [state, "open"] false]]
    limit := some limit }

/-- Neither a literal nor a key that looks like a part of a statement becomes one. -/
theorem sql_eq_of_outline_eq_namedPosts :
    (namedPosts "a" "b" 1).outline = (namedPosts "x\x27 OR 1 = 1 --" "?" 30).outline ∧
      (Statement.ofPlan (namedPosts "a" "b" 1)).sql .postgres =
        (Statement.ofPlan (namedPosts "x\x27 OR 1 = 1 --" "?" 30)).sql .postgres ∧
      (Statement.ofRelation (.morphMany "images" "owner_id" "owner_type" "post")
          (.ofTable "images" "images") .empty [.int 1]).sql .sqlite =
        (Statement.ofRelation (.morphMany "images" "owner_id" "owner_type" "it\x27s")
          (.ofTable "images" "images") .empty [.text "1) OR (1 = 1"]).sql .sqlite := by
  have houtline :
      (namedPosts "a" "b" 1).outline = (namedPosts "x\x27 OR 1 = 1 --" "?" 30).outline := rfl
  refine ⟨houtline, ((sql_eq_of_outline_eq .postgres).1 _ _ houtline).1, ?_⟩
  exact (sql_eq_of_outline_eq .sqlite).2 _ _ _ _ _ _ _ rfl rfl rfl

end Sql

end RestQuery
