import RestQuery.Proofs.Sql.Clauses

/-!
# Placeholders and bound values

The tokens of a statement are a phrase, so the placeholders of its text are found exactly where its
values were put. They are numbered from 1 without gaps, there are as many of them as values, and
with the values in their places the text is the inlined one. The values stand in the order of the
clauses: the term of the score in the projection, the keys and the type of a relation, the
comparisons of the predicates from left to right and depth first, the limit and the offset.

A full-text expression whose term finds no mark is the exception.
-/

namespace RestQuery

namespace Sql

variable {dialect : Dialect}

/-! ### Values of statements -/

@[simp]
theorem boundValues_nil : boundValues [] = [] := rfl

@[simp]
theorem boundValues_raw (text : String) (ts : List Token) :
    boundValues (.raw text :: ts) = boundValues ts := rfl

@[simp]
theorem boundValues_name (identifier : String) (ts : List Token) :
    boundValues (.name identifier :: ts) = boundValues ts := rfl

theorem boundValues_append (ts us : List Token) :
    boundValues (ts ++ us) = boundValues ts ++ boundValues us := List.filterMap_append

theorem boundValues_commaSeparated (lists : List (List Token)) :
    boundValues (commaSeparated lists) = lists.flatMap boundValues := by
  induction lists with
  | nil => rfl
  | cons ts rest ih =>
    cases rest with
    | nil => rw [commaSeparated, List.flatMap_singleton]
    | cons next rest =>
      rw [commaSeparated, boundValues_append, List.flatMap_cons, ← ih]
      rfl

/-- The values of a leaf, in order. An empty list compares two constants. -/
def Leaf.bound : Leaf → List Value
  | compare _ _ value => [value]
  | isNull _ _ => []
  | like _ pattern _ _ => [.text pattern]
  | isIn _ [] negated => [.small 1, .small (if negated then 1 else 2)]
  | isIn _ (value :: values) _ => value :: values
  | fullText _ term => [.text term]
  | constant _ => []

def Item.bound : Item → List Value
  | score _ term _ => [.text term]
  | _ => []

theorem Leaf.boundValues_tokens {l : Leaf} (h : l.bindsValues dialect = true) :
    boundValues (l.tokens dialect) = l.bound := by
  cases l with
  | like ref pattern negated escape => cases escape <;> rfl
  | isIn ref values negated =>
    cases values with
    | nil => rfl
    | cons value values =>
      have hentries : boundValues
          (commaSeparated ((value :: values).map fun value => [.bound value])) =
          value :: values := by
        rw [boundValues_commaSeparated, List.flatMap_map]
        exact List.flatMap_singleton' _
      rw [tokens, boundValues_append, boundValues_append, hentries]
      exact List.append_nil _
  | fullText columns term => exact boundValues_fullTextTokens h term
  | _ => rfl

theorem Leaf.flatMap_boundValues {ls : List Leaf} (h : ∀ l ∈ ls, l.bindsValues dialect = true) :
    (ls.flatMap fun l => boundValues (l.tokens dialect)) = ls.flatMap Leaf.bound :=
  List.flatMap_congr fun l hl => l.boundValues_tokens (h l hl)

theorem boundValues_pieces (ps : List Piece) :
    boundValues (ps.flatMap (Piece.tokens dialect)) =
      (leavesIn ps).flatMap fun l => boundValues (l.tokens dialect) := by
  induction ps with
  | nil => rfl
  | cons p ps ih =>
    rw [List.flatMap_cons, boundValues_append, ih]
    cases p <;> rfl

theorem Item.boundValues_tokens {item : Item} (h : item.bindsValues dialect = true) :
    boundValues (item.tokens dialect) = item.bound := by
  cases item with
  | score columns term label =>
    rw [tokens, boundValues_append, boundValues_fullTextTokens h]
    rfl
  | _ => rfl

theorem Item.flatMap_boundValues {items : List Item}
    (h : ∀ item ∈ items, item.bindsValues dialect = true) :
    (items.flatMap fun item => boundValues (item.tokens dialect)) = items.flatMap Item.bound :=
  List.flatMap_congr fun item hitem => item.boundValues_tokens (h item hitem)

theorem Join.boundValues_elim (join : Option Join) :
    boundValues (join.elim [] Join.tokens) = [] := by
  cases join <;> rfl

theorem Select.boundValues_whereTokens (s : Select) :
    boundValues (whereTokens dialect s.conditions) =
      s.leaves.flatMap fun l => boundValues (l.tokens dialect) := by
  unfold leaves
  cases s.conditions with
  | nil => rfl
  | cons c rest =>
    rw [← Condition.leavesIn_chain true]
    exact boundValues_pieces (Condition.chain true (c :: rest))

theorem boundValues_orderByTokens (orders : List (OrderTarget × Bool)) :
    boundValues (orderByTokens orders) = [] := by
  cases orders with
  | nil => rfl
  | cons order rest =>
    have hnone : ∀ order : OrderTarget × Bool, boundValues (orderTokens order) = [] := by
      rintro ⟨_ | _, _⟩ <;> rfl
    change boundValues (commaSeparated ((order :: rest).map orderTokens)) = []
    rw [boundValues_commaSeparated, List.flatMap_map]
    simp [hnone]

theorem boundValues_countTokens (keyword : String) (number : Option Nat) :
    boundValues (countTokens keyword number) = (number.map Value.count).toList := by
  cases number <;> rfl

theorem Select.boundValues_tokens (s : Select) :
    boundValues (s.tokens dialect) =
      (s.items.flatMap fun item => boundValues (item.tokens dialect)) ++
        (s.leaves.flatMap fun l => boundValues (l.tokens dialect)) ++
          (s.limit.map Value.count).toList ++ (s.offset.map Value.count).toList := by
  have hitems : boundValues (commaSeparated (s.items.map (Item.tokens dialect))) =
      s.items.flatMap fun item => boundValues (item.tokens dialect) := by
    rw [boundValues_commaSeparated, List.flatMap_map]
  rw [tokens_eq]
  simp only [boundValues_raw, boundValues_append, hitems, boundValues_name, boundValues_nil,
    Join.boundValues_elim, boundValues_whereTokens, boundValues_orderByTokens,
    boundValues_countTokens, List.append_nil]

theorem Select.BindsValues.boundValues_tokens {s : Select} (h : s.BindsValues dialect) :
    boundValues (s.tokens dialect) =
      s.items.flatMap Item.bound ++ s.leaves.flatMap Leaf.bound ++
        (s.limit.map Value.count).toList ++ (s.offset.map Value.count).toList := by
  rw [s.boundValues_tokens, Item.flatMap_boundValues h.items, Leaf.flatMap_boundValues h.leaves]

/-! ### Placeholders of phrases -/

/-- The numbers of the placeholders among cells. -/
def marksIn (cells : List Cell) : List (Option Nat) :=
  cells.filterMap fun
    | .mark number => some number
    | .char _ => none

/-- The text of cells with the placeholders replaced, from left to right, by the given texts. -/
def fill : List Cell → List (List Char) → List Char
  | [], _ => []
  | .char c :: cells, texts => c :: fill cells texts
  | .mark _ :: cells, text :: texts => text ++ fill cells texts
  | .mark _ :: cells, [] => fill cells []

theorem marksIn_chars (cs : List Char) (cells : List Cell) :
    marksIn (cs.map .char ++ cells) = marksIn cells := by
  induction cs with
  | nil => rfl
  | cons c cs ih => exact ih

theorem fill_chars (cs : List Char) (cells : List Cell) (texts : List (List Char)) :
    fill (cs.map .char ++ cells) texts = cs ++ fill cells texts := by
  induction cs with
  | nil => rfl
  | cons c cs ih => exact congrArg (c :: ·) ih

theorem marksIn_cellsOf (n : Nat) (ts : List Token) :
    marksIn (cellsOf dialect n ts) =
      (List.range' n (boundValues ts).length).map dialect.numberOf := by
  induction ts generalizing n with
  | nil => rfl
  | cons t ts ih =>
    cases t with
    | bound value =>
      change dialect.numberOf n :: marksIn (cellsOf dialect (n + 1) ts) = _
      rw [ih]
      rfl
    | _ =>
      rw [cellsOf, marksIn_chars, ih]
      rfl

theorem fill_cellsOf (n : Nat) (ts : List Token) :
    fill (cellsOf dialect n ts) ((boundValues ts).map (Value.inlined dialect)) =
      inlined dialect ts := by
  induction ts generalizing n with
  | nil => rfl
  | cons t ts ih =>
    cases t with
    | bound value => exact congrArg (value.inlined dialect ++ ·) (ih (n + 1))
    | _ =>
      rw [cellsOf, fill_chars]
      exact congrArg (_ ++ ·) (ih n)

/-- The statement binds the values: they are its values, its text has a placeholder for each of them
in turn, and with the values in place it is the inlined text. -/
structure Statement.Binds (dialect : Dialect) (statement : Statement) (values : List Value) :
    Prop where
  values_eq : statement.values dialect = values
  marks_eq : marksIn (scan dialect (statement.sql dialect).toList) =
    (List.range' 1 values.length).map dialect.numberOf
  fill_eq : fill (scan dialect (statement.sql dialect).toList)
    (values.map (Value.inlined dialect)) = (statement.inline dialect).toList

theorem Statement.scan_of_isPhrase {statement : Statement}
    (h : IsPhrase dialect (statement.tokens dialect)) :
    scan dialect (statement.sql dialect).toList = cellsOf dialect 1 (statement.tokens dialect) := by
  rw [sql, String.toList_ofList, ← spell_cellsOf]
  exact (h 1).1

theorem Statement.binds_of_isPhrase {statement : Statement}
    (h : IsPhrase dialect (statement.tokens dialect)) {values : List Value}
    (hvalues : boundValues (statement.tokens dialect) = values) :
    statement.Binds dialect values := by
  subst hvalues
  refine ⟨rfl, ?_, ?_⟩
  · rw [scan_of_isPhrase h, marksIn_cellsOf]
  · rw [scan_of_isPhrase h, fill_cellsOf, inline, String.toList_ofList]

end Sql

/-! ### Values of plans -/

open Sql

namespace Predicate

section

variable (table : String)

mutual

def leaves : Predicate → List Leaf
  | compare column op literal => [.compare (.resolve table column) op (.ofLiteral literal)]
  | isNull column negated => [.isNull (.resolve table column) negated]
  | like column pattern negated escape => [.like (.resolve table column) pattern negated escape]
  | isIn column literals negated =>
    [.isIn (.resolve table column) (literals.map .ofLiteral) negated]
  | search columns term => [.fullText (columns.map (.resolve table)) term]
  | any parts => allLeaves parts
  | all parts => allLeaves parts
  | always => [.constant true]
  | never => [.constant false]

def allLeaves : List Predicate → List Leaf
  | [] => []
  | p :: rest => leaves p ++ allLeaves rest

end

mutual

theorem leavesIn_condition (p : Predicate) :
    leavesIn (condition table p).pieces = p.leaves table := by
  cases p with
  | any parts => exact (Condition.leavesIn_chain false _).trans (leavesIn_conditions parts)
  | all parts => exact (Condition.leavesIn_chain true _).trans (leavesIn_conditions parts)
  | _ => rfl

theorem leavesIn_conditions (ps : List Predicate) :
    (conditions table ps).flatMap (fun c => leavesIn c.pieces) = allLeaves table ps := by
  cases ps with
  | nil => rfl
  | cons p rest =>
    rw [conditions, List.flatMap_cons, Condition.pieces_asMember, leavesIn_condition p,
      leavesIn_conditions rest, allLeaves]

end

end

end Predicate

namespace Plan

/-- The values of the projection: the term of the score, as often as its name is selected, at least
once. -/
def scoreValues (plan : Plan) : List Value :=
  match plan.score with
  | some score => List.replicate (max 1 (plan.select.count score.label)) (.text score.term)
  | none => []

def values (plan : Plan) : List Value :=
  plan.scoreValues ++ (Predicate.allLeaves plan.table plan.predicates).flatMap Leaf.bound ++
    (plan.limit.map Value.count).toList ++ (plan.offset.map Value.count).toList

/-- Every full-text expression of a plan binds its term. -/
structure BindsValues (dialect : Dialect) (plan : Plan) : Prop where
  score : ∀ score ∈ plan.score, bindsTerm dialect (score.columns.map (.resolve plan.table)) = true
  predicates : ∀ l ∈ Predicate.allLeaves plan.table plan.predicates,
    l.bindsValues dialect = true

end Plan

namespace Sql

theorem bound_projection (table : String) (columns : List String) (score : Option Score) :
    (projection table columns score).flatMap Item.bound =
      match score with
      | some score => List.replicate (max 1 (columns.count score.label)) (.text score.term)
      | none => [] := by
  cases score with
  | none =>
    cases columns with
    | nil => rfl
    | cons column columns =>
      have hcolumn : ∀ column, (columnItem table none column).bound = [] := fun _ => rfl
      simp [projection, List.flatMap_map, hcolumn]
  | some score =>
    have hcolumn : ∀ column, (columnItem table (some score) column).bound =
        if score.label = column then [.text score.term] else [] := by
      intro column
      rw [columnItem, apply_ite Item.bound]
      rfl
    have hcolumns : ∀ columns : List String,
        (columns.map (columnItem table (some score))).flatMap Item.bound =
          List.replicate (columns.count score.label) (.text score.term) := by
      intro columns
      induction columns with
      | nil => rfl
      | cons column columns ih =>
        rw [List.map_cons, List.flatMap_cons, hcolumn, ih, List.count_cons]
        by_cases h : score.label = column
        · simp [h, List.replicate_succ]
        · simp [h, Ne.symm h]
    have hshown : (if columns.isEmpty then [.everyColumn table]
        else columns.map (columnItem table (some score))).flatMap Item.bound =
        List.replicate (columns.count score.label) (.text score.term) := by
      cases columns with
      | nil => rfl
      | cons column columns => exact hcolumns (column :: columns)
    -- the score stands where its name is selected, or else once at the end
    unfold projection
    by_cases hlabel : columns.contains score.label = true
    · have hcount : 1 ≤ columns.count score.label :=
        List.count_pos_iff.mpr (by simpa using hlabel)
      simp only [hlabel, if_true, hshown, Nat.max_eq_right hcount]
    · have hcount : columns.count score.label = 0 :=
        List.count_eq_zero.mpr (by simpa using hlabel)
      simp only [hlabel, Bool.false_eq_true, if_false, List.flatMap_append, hshown, hcount]
      rfl

/-- The entries of a projection are columns and the score. -/
theorem eq_of_mem_projection {table : String} {columns : List String} {score : Option Score}
    {item : Item} (h : item ∈ projection table columns score) :
    item = .everyColumn table ∨ (∃ ref, item = .column ref) ∨
      ∃ s, score = some s ∧ item = scoreItem table s := by
  have hcolumn : ∀ column, (∃ ref, columnItem table score column = .column ref) ∨
      ∃ s, score = some s ∧ columnItem table score column = scoreItem table s := by
    intro column
    cases score with
    | none => exact .inl ⟨_, rfl⟩
    | some s =>
      by_cases hlabel : s.label = column
      · exact .inr ⟨s, rfl, if_pos hlabel⟩
      · exact .inl ⟨_, if_neg hlabel⟩
  have hshown : item ∈ (if columns.isEmpty then [.everyColumn table]
      else columns.map (columnItem table score)) → item = .everyColumn table ∨
        (∃ ref, item = .column ref) ∨ ∃ s, score = some s ∧ item = scoreItem table s := by
    intro hitem
    split at hitem
    · exact .inl (List.mem_singleton.mp hitem)
    · obtain ⟨column, -, rfl⟩ := List.mem_map.mp hitem
      exact .inr (hcolumn column)
  cases score with
  | none => exact hshown h
  | some s =>
    by_cases hlabel : columns.contains s.label = true
    · exact hshown (by simpa only [projection, hlabel, if_true] using h)
    · simp only [projection, hlabel, Bool.false_eq_true, if_false, List.mem_append,
        List.mem_singleton] at h
      exact h.elim hshown fun hitem => .inr (.inr ⟨s, rfl, hitem⟩)

theorem leaves_selectOf (plan : Plan) :
    (selectOf plan).leaves = Predicate.allLeaves plan.table plan.predicates :=
  Predicate.leavesIn_conditions plan.table plan.predicates

theorem bindsValues_selectOf {dialect : Dialect} {plan : Plan} (h : plan.BindsValues dialect) :
    (selectOf plan).BindsValues dialect := by
  constructor
  · intro item hitem
    rcases eq_of_mem_projection hitem with rfl | ⟨ref, rfl⟩ | ⟨s, hs, rfl⟩
    · rfl
    · rfl
    · exact h.score s hs
  · rw [leaves_selectOf]
    exact h.predicates

theorem boundValues_selectOf {dialect : Dialect} {plan : Plan} (h : plan.BindsValues dialect) :
    boundValues ((selectOf plan).tokens dialect) = plan.values := by
  rw [(bindsValues_selectOf h).boundValues_tokens, leaves_selectOf]
  exact congrArg (· ++ _ ++ _ ++ _) (bound_projection plan.table plan.select plan.score)

theorem leaves_relationSelect (relation : Relation) (related : Entity) (load : EagerLoad)
    (keys : List Value) : (relationSelect relation related load keys).leaves =
      relation.keyLeaves related.table keys ++
        Predicate.allLeaves related.table load.predicates := by
  change ((tieOf relation related keys).conditions ++
    Predicate.conditions related.table load.predicates).flatMap _ = _
  rw [List.flatMap_append, Predicate.leavesIn_conditions, tieOf_conditions, List.flatMap_map]
  congr 1
  exact List.flatMap_singleton' _

/-- The entries of the projection of related rows are columns. -/
theorem column_of_mem_relationSelect {relation : Relation} {related : Entity} {load : EagerLoad}
    {keys : List Value} {item : Item}
    (h : item ∈ (relationSelect relation related load keys).items) (dialect : Dialect) :
    item.bindsValues dialect = true ∧ item.bound = [] := by
  rcases List.mem_append.mp h with hitem | hitem
  · rcases eq_of_mem_projection hitem with rfl | ⟨ref, rfl⟩ | ⟨s, hs, -⟩
    · exact ⟨rfl, rfl⟩
    · exact ⟨rfl, rfl⟩
    · cases hs
  · obtain ⟨ref, label, rfl⟩ := labelled_of_mem_keyItem (Option.mem_toList.mp hitem)
    exact ⟨rfl, rfl⟩

/-- The values of the select of related rows: the keys and the type, then the predicates. -/
def relationValues (relation : Relation) (related : Entity) (load : EagerLoad)
    (keys : List Value) : List Value :=
  (relation.keyLeaves related.table keys).flatMap Leaf.bound ++
    (Predicate.allLeaves related.table load.predicates).flatMap Leaf.bound

theorem bindsValues_keyLeaves {relation : Relation} {table : String} {keys : List Value} {l : Leaf}
    (h : l ∈ relation.keyLeaves table keys) (dialect : Dialect) :
    l.bindsValues dialect = true := by
  unfold Relation.keyLeaves at h
  split at h
  · rcases List.mem_cons.mp h with rfl | h
    · rfl
    · obtain ⟨test, -, rfl⟩ : ∃ test, relation.typeTest? table = some test ∧
          .compare test.1 .eq (.text test.2) = l := by simpa using h
      rfl
  · cases h

theorem bindsValues_relationSelect {dialect : Dialect} {relation : Relation} {related : Entity}
    {load : EagerLoad} {keys : List Value}
    (h : ∀ l ∈ Predicate.allLeaves related.table load.predicates, l.bindsValues dialect = true) :
    (relationSelect relation related load keys).BindsValues dialect := by
  refine ⟨fun item hitem => (column_of_mem_relationSelect hitem dialect).1, fun l hl => ?_⟩
  rw [leaves_relationSelect] at hl
  exact (List.mem_append.mp hl).elim (bindsValues_keyLeaves · dialect) (h l)

theorem boundValues_relationSelect {dialect : Dialect} {relation : Relation} {related : Entity}
    {load : EagerLoad} {keys : List Value}
    (h : ∀ l ∈ Predicate.allLeaves related.table load.predicates, l.bindsValues dialect = true) :
    boundValues ((relationSelect relation related load keys).tokens dialect) =
      relationValues relation related load keys := by
  have hitems : (relationSelect relation related load keys).items.flatMap Item.bound = [] :=
    List.flatMap_eq_nil_iff.mpr fun item hitem => (column_of_mem_relationSelect hitem dialect).2
  rw [(bindsValues_relationSelect h).boundValues_tokens, leaves_relationSelect, hitems,
    List.flatMap_append]
  simp only [List.nil_append]
  exact (List.append_nil _).trans (List.append_nil _)

/-- The select and the count of a plan and the select of related rows bind their values, if every
full-text expression in them binds its term. -/
theorem statements_bind (dialect : Dialect) :
    (∀ plan : Plan, plan.BindsValues dialect →
      (Statement.ofPlan plan).Binds dialect plan.values ∧
        (Statement.countOf plan).Binds dialect plan.forCount.values) ∧
    ∀ (relation : Relation) (related : Entity) (load : EagerLoad) (keys : List Value),
      (∀ l ∈ Predicate.allLeaves related.table load.predicates, l.bindsValues dialect = true) →
      (Statement.ofRelation relation related load keys).Binds dialect
        (relationValues relation related load keys) := by
  constructor
  · intro plan h
    have hcount : plan.forCount.BindsValues dialect := ⟨h.score, h.predicates⟩
    constructor
    · exact Statement.binds_of_isPhrase (Select.isPhrase_tokens (bindsValues_selectOf h))
        (boundValues_selectOf h)
    · refine Statement.binds_of_isPhrase (Select.isPhrase_count (bindsValues_selectOf hcount)) ?_
      rw [← boundValues_selectOf hcount]
      change boundValues (_ ++ _ ++ _) = _
      rw [boundValues_append, boundValues_append]
      exact List.append_nil _
  · intro relation related load keys h
    exact Statement.binds_of_isPhrase (Select.isPhrase_tokens (bindsValues_relationSelect h))
      (boundValues_relationSelect h)

/-- Posts that match a term in two columns, the best ones first. -/
def matchingPosts (term : String) : Plan :=
  { Plan.ofTable "posts" with
    score := some ⟨"search_score", ["title", "body"], term⟩
    predicates := [.search ["title", "body"] term, .isIn "state" [] true,
      .any [.like "title" "50\\%" false (some '\\'), .compare "likes" .ge "007"]]
    orders := [⟨"search_score", true⟩]
    limit := some 10 }

/-- A question mark in a name or in a term is no placeholder. -/
theorem statements_bind_matchingPosts :
    (matchingPosts "what?").BindsValues .mysql ∧
      (Statement.ofPlan (matchingPosts "what?")).Binds .mysql
        [.text "what?", .text "what?", .small 1, .small 1, .text "50\\%", .text "007",
          .count 10] ∧
      (Statement.ofRelation (.morphMany "images" "owner?id" "owner_type" "post")
        (.ofTable "images" "images") .empty [.int 1, .int 2]).Binds .postgres
          [.int 1, .int 2, .text "post"] := by
  have hbinds : (matchingPosts "what?").BindsValues .mysql := by
    refine ⟨fun score hscore => ?_, List.all_eq_true.mp (by decide +kernel)⟩
    obtain rfl := Option.mem_some.mp hscore
    decide +kernel
  refine ⟨hbinds, ((statements_bind .mysql).1 _ hbinds).1, ?_⟩
  exact (statements_bind .postgres).2 _ _ _ _ fun l hl => by cases hl

/-- The column `a\` runs into what follows it: its placeholder has no value. -/
theorem no_value_for_match_behind_backslash :
    let plan : Plan := { Plan.ofTable "posts" with predicates := [.search ["a\\"] "rust"] }
    marksIn (scan .mysql ((Statement.ofPlan plan).sql .mysql).toList) = [none] ∧
      (Statement.ofPlan plan).values .mysql = [] ∧ plan.values = [.text "rust"] := by
  decide +kernel

end Sql

end RestQuery
