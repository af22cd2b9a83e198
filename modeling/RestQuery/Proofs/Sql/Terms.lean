import RestQuery.Proofs.Scored
import RestQuery.Proofs.Sql.Placeholders

/-!
# Terms of full-text expressions

A full-text expression is written from a template of its own, wherever it stands: as the score in
the projection or deep in the condition. If its names are separate and the dialect marks places with
a plain `?`, it brings one placeholder and one value, its term, and these stand at the same place of
the text and of the values. Where places are marked with numbers the `?` of the template is plain
text, and the term is bound nowhere.
-/

namespace RestQuery

namespace Sql

variable {dialect : Dialect} {columns : List ColumnRef} {term : String}

/-! ### The text of an expression -/

def fullTextHead (columns : List ColumnRef) : List Char :=
  "MATCH (".toList ++ [',', ' '].intercalate (columns.map backtickedRef) ++ ") AGAINST (".toList

def fullTextTail : List Char := " IN BOOLEAN MODE)".toList

theorem text_columnParts (columns : List ColumnRef) :
    (columnParts columns).flatMap Template.Part.text =
      [',', ' '].intercalate (columns.map backtickedRef) := by
  have href : ∀ ref : ColumnRef, ref.parts.flatMap Template.Part.text = backtickedRef ref := by
    intro ref
    simp [ColumnRef.parts, Template.Part.text, backtickedRef]
  induction columns with
  | nil => rfl
  | cons ref columns ih =>
    cases columns with
    | nil => rw [columnParts, href, List.map_singleton, List.intercalate_singleton]
    | cons next columns =>
      rw [columnParts, List.flatMap_append, href, List.map_cons, List.map_cons,
        List.intercalate_cons_cons, ← List.map_cons, ← ih]
      simp [Template.Part.text]

/-- The expression has one placeholder, between its columns and its mode. -/
theorem cellsOf_fullText (h : bindsTerm dialect columns = true) (term : String) (n : Nat) :
    cellsOf dialect n (fullTextTokens dialect columns term) =
      (fullTextHead columns).map .char ++
        .mark (dialect.numberOf n) :: fullTextTail.map .char := by
  unfold fullTextHead fullTextTail
  rw [cellsOf_fullTextTokens h, fullTextPhrase, cellsOf, cellsOf_columns, text_columnParts,
    cellsOf, cellsOf, cellsOf, cellsOf, List.append_nil]
  simp only [List.map_append, List.append_assoc]

/-! ### Expressions among tokens -/

/-- The expression stands among tokens, with some values bound before it and others behind it. -/
def StandsIn (dialect : Dialect) (columns : List ColumnRef) (term : String) (tokens : List Token)
    (before after : List Value) : Prop :=
  ∃ front back, tokens = front ++ fullTextTokens dialect columns term ++ back ∧
    boundValues front = before ∧ boundValues back = after

theorem exists_eq_append_leaf {ps : List Piece} {l : Leaf} {front back : List Leaf}
    (h : leavesIn ps = front ++ l :: back) :
    ∃ qs rs, ps = qs ++ .leaf l :: rs ∧ leavesIn qs = front ∧ leavesIn rs = back := by
  obtain ⟨before, rest, rfl, hbefore, hrest⟩ := List.filterMap_eq_append_iff.mp h
  obtain ⟨between, piece, after, rfl, hbetween, hpiece, hafter⟩ :=
    List.filterMap_eq_cons_iff.mp hrest
  obtain rfl : piece = .leaf l := by
    cases piece with
    | leaf l' => exact congrArg Piece.leaf (Option.some.inj hpiece)
    | _ => cases hpiece
  have hnone : leavesIn between = [] := List.filterMap_eq_nil_iff.mpr hbetween
  refine ⟨before ++ between, after, (List.append_assoc ..).symm, ?_, hafter⟩
  rw [leavesIn_append, hnone, List.append_nil]
  exact hbefore

namespace StandsIn

variable {ts us : List Token} {before after : List Value}

theorem self : StandsIn dialect columns term (fullTextTokens dialect columns term) [] [] :=
  ⟨[], [], (List.append_nil _).symm, rfl, rfl⟩

theorem append (h : StandsIn dialect columns term ts before after) (us : List Token) :
    StandsIn dialect columns term (ts ++ us) before (after ++ boundValues us) := by
  obtain ⟨front, back, rfl, rfl, rfl⟩ := h
  exact ⟨front, back ++ us, List.append_assoc .., rfl, boundValues_append back us⟩

theorem behind (h : StandsIn dialect columns term ts before after) (us : List Token) :
    StandsIn dialect columns term (us ++ ts) (boundValues us ++ before) after := by
  obtain ⟨front, back, rfl, rfl, rfl⟩ := h
  exact ⟨us ++ front, back, by simp only [List.append_assoc], boundValues_append us front, rfl⟩

theorem commaSeparated (h : StandsIn dialect columns term ts before after)
    (xs ys : List (List Token)) :
    StandsIn dialect columns term (commaSeparated (xs ++ ts :: ys))
      (xs.flatMap boundValues ++ before) (after ++ ys.flatMap boundValues) := by
  induction xs with
  | nil =>
    cases ys with
    | nil => simpa [Sql.commaSeparated] using h
    | cons next ys =>
      have hbehind := h.append (.raw ", " :: Sql.commaSeparated (next :: ys))
      rw [← boundValues_commaSeparated (next :: ys)]
      exact hbehind
  | cons first xs ih =>
    have hfront := (ih.behind [.raw ", "]).behind first
    rw [List.flatMap_cons, List.append_assoc]
    cases xs with
    | nil => exact hfront
    | cons next xs => exact hfront

theorem of_leavesIn {ps : List Piece} {front back : List Leaf}
    (h : leavesIn ps = front ++ .fullText columns term :: back) :
    StandsIn dialect columns term (ps.flatMap (Piece.tokens dialect))
      (front.flatMap fun l => boundValues (l.tokens dialect))
      (back.flatMap fun l => boundValues (l.tokens dialect)) := by
  obtain ⟨qs, rs, rfl, rfl, rfl⟩ := exists_eq_append_leaf h
  refine ⟨qs.flatMap (Piece.tokens dialect), rs.flatMap (Piece.tokens dialect), ?_,
    boundValues_pieces qs, boundValues_pieces rs⟩
  rw [List.flatMap_append, List.flatMap_cons, List.append_assoc]
  rfl

end StandsIn

/-! ### Expressions in statements -/

/-- The statement binds the term of an expression behind some values and before others: the term is
their neighbour among the values, and the text has the expression with the placeholder of that
number in the place of the term, behind the placeholders of the former and before those of the
latter. -/
structure Statement.BindsTerm (dialect : Dialect) (statement : Statement)
    (columns : List ColumnRef) (term : String) (before after : List Value) : Prop where
  values_eq : statement.values dialect = before ++ .text term :: after
  text : ∃ front back,
    scan dialect (statement.sql dialect).toList =
      front ++ (fullTextHead columns).map .char ++
        .mark (dialect.numberOf (before.length + 1)) :: fullTextTail.map .char ++ back ∧
    marksIn front = (List.range' 1 before.length).map dialect.numberOf ∧
    marksIn back = (List.range' (before.length + 2) after.length).map dialect.numberOf

theorem Statement.bindsTerm_of_standsIn {statement : Statement}
    (hphrase : IsPhrase dialect (statement.tokens dialect))
    (hbinds : bindsTerm dialect columns = true) {before after : List Value}
    (h : StandsIn dialect columns term (statement.tokens dialect) before after) :
    statement.BindsTerm dialect columns term before after := by
  obtain ⟨front, back, htokens, rfl, rfl⟩ := h
  have hterm := boundValues_fullTextTokens hbinds term
  constructor
  · rw [values, htokens, boundValues_append, boundValues_append, hterm, List.append_assoc]
    rfl
  · refine ⟨cellsOf dialect 1 front, cellsOf dialect ((boundValues front).length + 2) back, ?_,
      marksIn_cellsOf 1 front, marksIn_cellsOf _ back⟩
    have hnumber : 1 + (boundValues front).length = (boundValues front).length + 1 :=
      Nat.add_comm ..
    rw [scan_of_isPhrase hphrase, htokens, cellsOf_append, cellsOf_append, cellsOf_fullText hbinds,
      boundValues_append, hterm, List.length_append, List.length_singleton, ← Nat.add_assoc,
      hnumber]
    simp only [List.append_assoc]

namespace Select

variable {s : Select}

/-- Where the expression is the score, the entries of the projection before and behind it give the
values around its term, and the later clauses give more. -/
theorem standsIn_item {front back : List Item} {label : String} (h : s.BindsValues dialect)
    (hitems : s.items = front ++ .score columns term label :: back) :
    StandsIn dialect columns term (s.tokens dialect) (front.flatMap Item.bound)
      (back.flatMap Item.bound ++ s.leaves.flatMap Leaf.bound ++
        (s.limit.map Value.count).toList ++ (s.offset.map Value.count).toList) := by
  have hall := h.items
  rw [hitems] at hall
  obtain ⟨hfront, hrest⟩ := List.forall_mem_append.mp hall
  obtain ⟨-, hback⟩ := List.forall_mem_cons.mp hrest
  have hitem : StandsIn dialect columns term
      ((Item.score columns term label).tokens dialect) [] [] :=
    StandsIn.self.append [.raw " AS ", .name label]
  have hlisted := hitem.commaSeparated (front.map (Item.tokens dialect))
    (back.map (Item.tokens dialect))
  have hwhole := ((((((hlisted.append [.raw " FROM ", .name s.table]).append
    (s.join.elim [] Join.tokens)).append (whereTokens dialect s.conditions)).append
    (orderByTokens s.orders)).append (countTokens " LIMIT " s.limit)).append
    (countTokens " OFFSET " s.offset)).behind [.raw "SELECT "]
  simp only [List.flatMap_map, Item.flatMap_boundValues hfront, Item.flatMap_boundValues hback,
    boundValues_raw, boundValues_name, boundValues_nil, Join.boundValues_elim,
    boundValues_whereTokens, Leaf.flatMap_boundValues h.leaves, boundValues_orderByTokens,
    boundValues_countTokens, List.append_nil, List.nil_append] at hwhole
  rw [tokens_eq, hitems, List.map_append, List.map_cons]
  exact hwhole

theorem standsIn_leaf {front back : List Leaf} (h : s.BindsValues dialect)
    (hleaves : s.leaves = front ++ .fullText columns term :: back) :
    StandsIn dialect columns term (s.tokens dialect)
      (s.items.flatMap Item.bound ++ front.flatMap Leaf.bound)
      (back.flatMap Leaf.bound ++ (s.limit.map Value.count).toList ++
        (s.offset.map Value.count).toList) := by
  have hall := h.leaves
  rw [hleaves] at hall
  obtain ⟨hfront, hrest⟩ := List.forall_mem_append.mp hall
  obtain ⟨-, hback⟩ := List.forall_mem_cons.mp hrest
  have hwhere : StandsIn dialect columns term (whereTokens dialect s.conditions)
      (front.flatMap Leaf.bound) (back.flatMap Leaf.bound) := by
    have hpieces : leavesIn (Condition.chain true s.conditions) = s.leaves :=
      Condition.leavesIn_chain true s.conditions
    have hchain : StandsIn dialect columns term _ _ _ :=
      StandsIn.of_leavesIn (hpieces.trans hleaves)
    rw [Leaf.flatMap_boundValues hfront, Leaf.flatMap_boundValues hback] at hchain
    cases hconditions : s.conditions with
    | nil =>
      rw [leaves, hconditions] at hleaves
      simp at hleaves
    | cons c rest =>
      rw [hconditions] at hchain
      exact hchain.behind [.raw " WHERE "]
  have hwhole := ((((hwhere.append (orderByTokens s.orders)).append
    (countTokens " LIMIT " s.limit)).append (countTokens " OFFSET " s.offset)).behind
    (commaSeparated (s.items.map (Item.tokens dialect)) ++ [.raw " FROM ", .name s.table] ++
      s.join.elim [] Join.tokens)).behind [.raw "SELECT "]
  simp only [boundValues_append, boundValues_commaSeparated, List.flatMap_map,
    Item.flatMap_boundValues h.items, boundValues_raw, boundValues_name, boundValues_nil,
    Join.boundValues_elim, boundValues_orderByTokens, boundValues_countTokens, List.append_nil,
    List.nil_append] at hwhole
  rw [tokens_eq]
  simpa only [List.append_assoc, List.cons_append, List.nil_append] using hwhole

theorem standsIn_count {before after : List Value}
    (h : StandsIn dialect columns term (s.tokens dialect) before after) :
    StandsIn dialect columns term ((Statement.count s).tokens dialect) before after := by
  have hwhole := (h.behind [.raw "SELECT COUNT(*) AS ", .name countAlias, .raw " FROM ("]).append
    [.raw ") AS ", .name "count_table"]
  simp only [boundValues_raw, boundValues_name, boundValues_nil, List.append_nil,
    List.nil_append] at hwhole
  exact hwhole

end Select

end Sql

/-! ### Expressions in plans -/

open Sql

namespace Predicate

variable {table : String} {p : Predicate} {ps : List Predicate} {front back : List Leaf}

theorem allLeaves_append (table : String) (ps qs : List Predicate) :
    allLeaves table (ps ++ qs) = allLeaves table ps ++ allLeaves table qs := by
  induction ps with
  | nil => rfl
  | cons p ps ih => rw [List.cons_append, allLeaves, allLeaves, ih, List.append_assoc]

/-- The predicate occurs among predicates on rows of `table`, at any depth, with some comparisons
before it and others behind it. -/
inductive Occurs (table : String) (p : Predicate) :
    List Predicate → List Leaf → List Leaf → Prop
  | here (before after : List Predicate) :
    Occurs table p (before ++ p :: after) (allLeaves table before) (allLeaves table after)
  | any {parts : List Predicate} {front back : List Leaf} (before after : List Predicate)
    (h : Occurs table p parts front back) :
    Occurs table p (before ++ .any parts :: after) (allLeaves table before ++ front)
      (back ++ allLeaves table after)
  | all {parts : List Predicate} {front back : List Leaf} (before after : List Predicate)
    (h : Occurs table p parts front back) :
    Occurs table p (before ++ .all parts :: after) (allLeaves table before ++ front)
      (back ++ allLeaves table after)

theorem Occurs.allLeaves_eq (h : p.Occurs table ps front back) :
    allLeaves table ps = front ++ p.leaves table ++ back := by
  induction h with
  | here before after => rw [allLeaves_append, allLeaves, List.append_assoc]
  | any before after _ ih =>
    rw [allLeaves_append, allLeaves, leaves, ih]
    simp only [List.append_assoc]
  | all before after _ ih =>
    rw [allLeaves_append, allLeaves, leaves, ih]
    simp only [List.append_assoc]

end Predicate

def Sql.Leaf.separatesNames : Leaf → Bool
  | fullText columns _ => columns.all ColumnRef.isSeparate
  | _ => true

def Sql.Leaf.boundBesideTerm : Leaf → List Value
  | fullText _ _ => []
  | l => l.bound

theorem Sql.Leaf.boundValues_tokens_postgres {l : Leaf} (h : l.separatesNames = true) :
    boundValues (l.tokens .postgres) = l.boundBesideTerm := by
  cases l with
  | fullText columns term =>
    exact boundValues_fullTextTokens_postgres (List.all_eq_true.mp h) term
  | _ => exact boundValues_tokens rfl

namespace Plan

variable {dialect : Dialect} {plan : Plan}

structure SeparatesNames (plan : Plan) : Prop where
  score : ∀ score ∈ plan.score,
    (score.columns.map (ColumnRef.resolve plan.table)).all ColumnRef.isSeparate = true
  predicates : ∀ l ∈ Predicate.allLeaves plan.table plan.predicates, l.separatesNames = true

theorem SeparatesNames.bindsValues (h : plan.SeparatesNames) (hdialect : dialect ≠ .postgres) :
    plan.BindsValues dialect := by
  have hterm : ∀ columns : List ColumnRef, columns.all ColumnRef.isSeparate = true →
      bindsTerm dialect columns = true := fun columns hcolumns => by
    rw [bindsTerm, Bool.and_eq_true, bne_iff_ne]
    exact ⟨hdialect, hcolumns⟩
  refine ⟨fun score hscore => hterm _ (h.score score hscore), fun l hl => ?_⟩
  have hl := h.predicates l hl
  cases l with
  | fullText columns term => exact hterm columns hl
  | _ => rfl

def valuesBesideTerms (plan : Plan) : List Value :=
  (Predicate.allLeaves plan.table plan.predicates).flatMap Leaf.boundBesideTerm ++
    (plan.limit.map .count).toList ++ (plan.offset.map .count).toList

theorem boundValues_selectOf_postgres (h : plan.SeparatesNames) :
    boundValues ((selectOf plan).tokens .postgres) = plan.valuesBesideTerms := by
  have hitems : ((selectOf plan).items.flatMap fun item => boundValues (item.tokens .postgres)) =
      [] := by
    refine List.flatMap_eq_nil_iff.mpr fun item hitem => ?_
    rcases eq_of_mem_projection hitem with rfl | ⟨ref, rfl⟩ | ⟨score, hscore, rfl⟩
    · rfl
    · rfl
    · have hcolumns := List.all_eq_true.mp (h.score score hscore)
      change boundValues (fullTextTokens _ _ _ ++ _) = []
      rw [boundValues_append, boundValues_fullTextTokens_postgres hcolumns]
      rfl
  have hleaves : ((selectOf plan).leaves.flatMap fun l => boundValues (l.tokens .postgres)) =
      (Predicate.allLeaves plan.table plan.predicates).flatMap Leaf.boundBesideTerm := by
    rw [leaves_selectOf]
    exact List.flatMap_congr fun l hl => l.boundValues_tokens_postgres (h.predicates l hl)
  rw [Select.boundValues_tokens, hitems, hleaves]
  rfl

/-- The select and the count of a plan bind the term of an expression behind some values and before
others; the page comes last in the select. -/
structure BindsTerm (dialect : Dialect) (plan : Plan) (columns : List ColumnRef) (term : String)
    (before after : List Value) : Prop where
  select : (Statement.ofPlan plan).BindsTerm dialect columns term before
    (after ++ (plan.limit.map Value.count).toList ++ (plan.offset.map Value.count).toList)
  count : (Statement.countOf plan).BindsTerm dialect columns term before after

structure BindsTerms (dialect : Dialect) (plan : Plan) : Prop where
  projected : ∀ score ∈ plan.score, scoreItem plan.table score ∈ (selectOf plan).items
  score : ∀ score ∈ plan.score, ∀ front back,
    (selectOf plan).items = front ++ scoreItem plan.table score :: back →
    plan.BindsTerm dialect (score.columns.map (.resolve plan.table)) score.term
      (front.flatMap Item.bound)
      (back.flatMap Item.bound ++
        (Predicate.allLeaves plan.table plan.predicates).flatMap Leaf.bound)
  search : ∀ columns term front back,
    (Predicate.search columns term).Occurs plan.table plan.predicates front back →
    plan.BindsTerm dialect (columns.map (.resolve plan.table)) term
      (plan.scoreValues ++ front.flatMap Leaf.bound) (back.flatMap Leaf.bound)

theorem bindsTerm_of_standsIn {columns : List ColumnRef} {term : String} {before after : List Value}
    (h : plan.BindsValues dialect) (hbinds : Sql.bindsTerm dialect columns = true)
    (hselect : StandsIn dialect columns term ((selectOf plan).tokens dialect) before
      (after ++ (plan.limit.map Value.count).toList ++ (plan.offset.map Value.count).toList))
    (hcount : StandsIn dialect columns term ((selectOf plan.forCount).tokens dialect) before
      (after ++ [] ++ [])) : plan.BindsTerm dialect columns term before after := by
  have hforCount : plan.forCount.BindsValues dialect := ⟨h.score, h.predicates⟩
  rw [List.append_nil, List.append_nil] at hcount
  exact ⟨Statement.bindsTerm_of_standsIn (Select.isPhrase_tokens (bindsValues_selectOf h)) hbinds
      hselect,
    Statement.bindsTerm_of_standsIn (Select.isPhrase_count (bindsValues_selectOf hforCount)) hbinds
      (Select.standsIn_count hcount)⟩

theorem BindsValues.bindsTerms (h : plan.BindsValues dialect) : plan.BindsTerms dialect := by
  have hselect := bindsValues_selectOf h
  have hcount : (selectOf plan.forCount).BindsValues dialect :=
    bindsValues_selectOf ⟨h.score, h.predicates⟩
  constructor
  · intro score hscore
    change _ ∈ projection plan.table plan.select plan.score
    rw [Option.mem_def.mp hscore]
    exact scoreItem_mem_projection plan.table plan.select score
  · intro score hscore front back hitems
    have hfirst := Select.standsIn_item hselect hitems
    have hsecond := Select.standsIn_item hcount hitems
    rw [leaves_selectOf] at hfirst hsecond
    exact bindsTerm_of_standsIn h (h.score score hscore) hfirst hsecond
  · intro columns term front back hoccurs
    have hleaves : (selectOf plan).leaves =
        front ++ .fullText (columns.map (.resolve plan.table)) term :: back := by
      rw [leaves_selectOf, hoccurs.allLeaves_eq, Predicate.leaves, List.append_assoc]
      rfl
    have hmem : .fullText (columns.map (.resolve plan.table)) term ∈ (selectOf plan).leaves := by
      rw [hleaves]
      exact List.mem_append_right _ (List.mem_cons_self ..)
    have hitems : (selectOf plan).items.flatMap Item.bound = plan.scoreValues :=
      bound_projection plan.table plan.select plan.score
    have hfirst := Select.standsIn_leaf hselect hleaves
    have hsecond := Select.standsIn_leaf hcount hleaves
    rw [hitems] at hfirst
    exact bindsTerm_of_standsIn h (hselect.leaves _ hmem) hfirst (hitems ▸ hsecond)

/-- A plan whose names are separate binds every term at its place, in the select and in the count,
unless places are marked with numbers: then it binds all its values but the terms. -/
theorem terms_bound (plan : Plan) (h : plan.SeparatesNames) :
    (∀ dialect ≠ .postgres, plan.BindsTerms dialect) ∧
      (Statement.ofPlan plan).values .postgres = plan.valuesBesideTerms ∧
      (Statement.countOf plan).values .postgres = plan.forCount.valuesBesideTerms := by
  have hcount : plan.forCount.SeparatesNames := ⟨h.score, h.predicates⟩
  refine ⟨fun dialect hdialect => (h.bindsValues hdialect).bindsTerms,
    boundValues_selectOf_postgres h, ?_⟩
  rw [← boundValues_selectOf_postgres hcount]
  change boundValues (_ ++ _ ++ _) = _
  rw [boundValues_append, boundValues_append]
  exact List.append_nil _

/-- Posts that have a number of likes or else match a term. -/
def likedOrMatchingPosts (term : String) : Plan :=
  { matchingPosts term with
    predicates := [.isIn "state" ["draft", "live"] false,
      .any [.compare "likes" .ge "7", .all [.search ["title"] term, .isNull "body" true]],
      .compare "likes" .lt "9"] }

/-- The term is the fifth value of the select, behind the score and three comparisons. -/
theorem terms_bound_of_likedOrMatchingPosts :
    (likedOrMatchingPosts "what?").SeparatesNames ∧
      (likedOrMatchingPosts "what?").BindsTerm .mysql [⟨"posts", "title"⟩] "what?"
        [.text "what?", .text "draft", .text "live", .int 7] [.int 9] ∧
      (Statement.ofPlan (likedOrMatchingPosts "what?")).values .postgres =
        [.text "draft", .text "live", .int 7, .int 9, .count 10] := by
  have hnames : (likedOrMatchingPosts "what?").SeparatesNames := by
    refine ⟨fun score hscore => ?_, List.all_eq_true.mp (by decide)⟩
    obtain rfl := Option.mem_some.mp hscore
    decide
  obtain ⟨hbinds, hpostgres, -⟩ := terms_bound _ hnames
  have hsearch : (Predicate.search ["title"] "what?").Occurs "posts" _ _ _ :=
    .here [] [.isNull "body" true]
  have hoccurs := (hsearch.all [.compare "likes" .ge "7"] []).any
    [.isIn "state" ["draft", "live"] false] [.compare "likes" .lt "9"]
  have hterm := (hbinds .mysql (by decide)).search _ _ _ _ hoccurs
  have hcolumns : ["title"].map (ColumnRef.resolve "posts") = [⟨"posts", "title"⟩] := by
    decide
  exact ⟨hnames, hcolumns ▸ hterm, hpostgres⟩

/-- The text of the select keeps the plain `?` of the template, and the term is not among its
values. -/
theorem no_value_for_match_in_postgres :
    let plan : Plan := { Plan.ofTable "posts" with predicates := [.search ["title"] "rust"] }
    (Statement.ofPlan plan).sql .postgres = "SELECT \"posts\".* FROM \"posts\" WHERE " ++
        "MATCH (`posts`.`title`) AGAINST (? IN BOOLEAN MODE)" ∧
      marksIn (scan .postgres ((Statement.ofPlan plan).sql .postgres).toList) = [] ∧
      (Statement.ofPlan plan).values .postgres = [] ∧ plan.values = [.text "rust"] := by
  decide +kernel

end Plan

end RestQuery
