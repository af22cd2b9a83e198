import RestQuery.Proofs.Columns
import RestQuery.Proofs.Level
import RestQuery.Proofs.Sql.Rows

/-!
# Related rows as a join

What a relation declares: a related row belongs to a key that its own column holds, or to a key once
for each row of a second table that holds the key and refers to the related row; polymorphic
relations test a type besides. The rows that the select of related rows finds for a key are the rows
that belong to it, as often as they do, if the key is asked for and the row satisfies the load.
-/

namespace RestQuery

open Sql Text

/-! ### Declared ties -/

/-- How a related row belongs to a key. A type test is a column and the text that it holds. -/
inductive DeclaredTie where
  /-- A column of the related row holds the key. -/
  | own (keyColumn : String) (typeTest : Option (String × String))
  /-- A row of a second table holds the key in one column, and in another one the value of a column
  of the related row. -/
  | second (table keyColumn joinColumn ownColumn : String) (typeTest : Option (String × String))
deriving DecidableEq, Repr

namespace Relation

def declaredTie? (relation : Relation) (related : Entity) : Option DeclaredTie :=
  match relation.kind with
  | .hasOne => some (.own relation.foreignKey none)
  | .hasMany => some (.own relation.foreignKey none)
  | .belongsTo => some (.own relation.localKey none)
  | .morphTo => some (.own relation.localKey none)
  | .morphMany =>
    match relation.typeColumn, relation.typeValue with
    | some column, some value => some (.own relation.foreignKey (some (column, value)))
    | _, _ => none
  | .hasManyThrough => relation.through.map fun through =>
      .second through.table through.firstKey through.secondLocalKey relation.foreignKey none
  | _ => relation.pivot.map fun pivot =>
      .second pivot.table pivot.parentKey pivot.relatedKey related.primaryKey pivot.morph

theorem Built.exists_declaredTie {relation : Relation} (h : relation.Built) (related : Entity) :
    ∃ tie, relation.declaredTie? related = some tie := by
  induction h with
  | @withLocalKey relation localKey _ ih =>
    obtain ⟨kind, target, foreignKey, ownKey, typeColumn, typeValue, pivot, through⟩ := relation
    cases kind with
    | belongsTo => exact ⟨_, rfl⟩
    | morphTo => exact ⟨_, rfl⟩
    | _ => exact ih
  | _ => exact ⟨_, rfl⟩

end Relation

namespace Sql.Engine

variable {Cell : Type} (engine : Engine Cell)

def IsAmong (keys : List Value) (key : Cell) : Prop := ∃ value ∈ keys, engine.order key value = .eq

instance (keys : List Value) (key : Cell) : Decidable (engine.IsAmong keys key) :=
  inferInstanceAs (Decidable (∃ value ∈ keys, engine.order key value = .eq))

def HasType (typeTest : Option (String × String)) (x : Record Cell) : Prop :=
  ∀ test ∈ typeTest, engine.compare (x.value test.1) .eq (.text test.2) = .yes

instance (typeTest : Option (String × String)) (x : Record Cell) :
    Decidable (engine.HasType typeTest x) :=
  inferInstanceAs (Decidable (∀ test ∈ typeTest, _ = Truth.yes))

end Sql.Engine

namespace DeclaredTie

def columns : DeclaredTie → List String
  | own keyColumn typeTest => keyColumn :: typeTest.toList.map Prod.fst
  | second _ keyColumn joinColumn ownColumn typeTest =>
    keyColumn :: joinColumn :: ownColumn :: typeTest.toList.map Prod.fst

def secondTable? : DeclaredTie → Option String
  | own _ _ => none
  | second table _ _ _ _ => some table

def keyTable (own : String) : DeclaredTie → String
  | .own _ _ => own
  | second table _ _ _ _ => table

def keyColumn : DeclaredTie → String
  | own keyColumn _ => keyColumn
  | second _ keyColumn _ _ _ => keyColumn

def typeTest : DeclaredTie → Option (String × String)
  | own _ typeTest => typeTest
  | second _ _ _ _ typeTest => typeTest

def joinColumn : DeclaredTie → String
  | own keyColumn _ => keyColumn
  | second _ _ _ _ _ => Relation.pivotAlias

variable {Cell : Type}

/-- What an answer shows of the key, beside the projection. -/
def keyShown (key : Option Cell) : DeclaredTie → Record Cell
  | own _ _ => []
  | second _ _ _ _ _ => [(Relation.pivotAlias, key)]

variable [DecidableEq Cell] (engine : Engine Cell) (contents : Contents Cell)

/-- How often a related row belongs to a key. -/
def times (x : Record Cell) (key : Cell) : DeclaredTie → Nat
  | own keyColumn typeTest =>
    if x.value keyColumn = some key ∧ engine.HasType typeTest x then 1 else 0
  | second table keyColumn joinColumn ownColumn typeTest =>
    (contents table).countP fun y => y.value keyColumn = some key ∧
      engine.equality (y.value joinColumn) (x.value ownColumn) = .yes ∧ engine.HasType typeTest y

end DeclaredTie

namespace EagerLoad

variable {Cell : Type}

def selected (load : EagerLoad) : List String := load.columns.getD []

def Admits (load : EagerLoad) (engine : Engine Cell) (table : String) (x : Record Cell) : Prop :=
  Truth.conjunction (Predicate.truths (engine.truth (Scope.value [(table, x)])) table
    load.predicates) = .yes

instance (load : EagerLoad) (engine : Engine Cell) (table : String) (x : Record Cell) :
    Decidable (load.Admits engine table x) := inferInstanceAs (Decidable (_ = Truth.yes))

def shown (load : EagerLoad) (table : String) (x : Record Cell) : Record Cell :=
  if load.selected.isEmpty then x
  else load.selected.map fun column =>
    ((ColumnRef.resolve table column).column, x.value (ColumnRef.resolve table column).column)

end EagerLoad

/-- A load of rows of `table` by a tie for which names mean what they say: no column of the tie has
a dot, and the second table is another one, of which no predicate reads a column. The projection
names columns of `table`, all of them or the key among them if it is one of them. -/
structure DeclaredTie.Separate (tie : DeclaredTie) (table : String) (load : EagerLoad) : Prop where
  undotted : ∀ column ∈ tie.columns, Undotted column
  apart : tie.secondTable? ≠ some table
  filtered : ∀ column ∈ Predicate.columnsOf load.predicates,
    tie.secondTable? ≠ some (ColumnRef.resolve table column).table
  projected : ∀ column ∈ load.selected, (ColumnRef.resolve table column).table = table
  keyProjected : load.selected = [] ∨ tie.secondTable?.isSome ∨
    ∃ column ∈ load.selected, (ColumnRef.resolve table column).column = tie.joinColumn

/-! ### The select of related rows -/

namespace DeclaredTie

def toTie (own : String) (keys : List Value) : DeclaredTie → Tie
  | .own keyColumn typeTest =>
    ⟨none, none, isOneOf ⟨own, keyColumn⟩ keys ::
      typeTest.toList.map fun (column, value) => equalsText ⟨own, column⟩ value⟩
  | second table keyColumn joinColumn ownColumn typeTest =>
    ⟨some (.labelled ⟨table, keyColumn⟩ Relation.pivotAlias),
      some ⟨table, ⟨table, joinColumn⟩, ⟨own, ownColumn⟩⟩,
      isOneOf ⟨table, keyColumn⟩ keys ::
        typeTest.toList.map fun (column, value) => equalsText ⟨table, column⟩ value⟩

end DeclaredTie

namespace Relation

variable {relation : Relation} {related : Entity} {tie : DeclaredTie}

theorem tieOf_eq (h : relation.declaredTie? related = some tie)
    (hundotted : ∀ column ∈ tie.columns, Undotted column) (keys : List Value) :
    tieOf relation related keys = tie.toTie related.table keys := by
  have hresolve : ∀ own, ∀ column ∈ tie.columns, ColumnRef.resolve own column = ⟨own, column⟩ :=
    fun own column hmem => ColumnRef.resolve_of_undotted own (hundotted column hmem)
  obtain ⟨kind, target, foreignKey, localKey, typeColumn, typeValue, pivot, through⟩ := relation
  cases kind with
  | morphMany =>
    cases typeColumn <;> cases typeValue <;> cases h
    simp [tieOf, DeclaredTie.toTie, hresolve, DeclaredTie.columns]
  | hasManyThrough =>
    cases through <;> cases h
    simp [tieOf, tieThrough, DeclaredTie.toTie, hresolve, DeclaredTie.columns]
  | belongsToMany | morphToMany | morphedByMany =>
    cases pivot with
    | none => cases h
    | some pivot =>
      obtain ⟨table, parentKey, relatedKey, morph⟩ := pivot
      cases morph <;> cases h <;>
        simp [tieOf, tieThrough, DeclaredTie.toTie, hresolve, DeclaredTie.columns]
  | _ =>
    cases h
    simp [tieOf, DeclaredTie.toTie, hresolve, DeclaredTie.columns]

theorem relatedJoinColumn_eq (h : relation.declaredTie? related = some tie) :
    relation.relatedJoinColumn = tie.joinColumn := by
  obtain ⟨kind, target, foreignKey, localKey, typeColumn, typeValue, pivot, through⟩ := relation
  cases kind with
  | morphMany =>
    cases typeColumn <;> cases typeValue <;> cases h
    rfl
  | hasManyThrough =>
    cases through <;> cases h
    rfl
  | belongsToMany | morphToMany | morphedByMany =>
    cases pivot <;> cases h
    rfl
  | _ =>
    cases h
    rfl

end Relation

namespace DeclaredTie

variable {Cell : Type} {engine : Engine Cell} {contents : Contents Cell} {table : String}
  {tie : DeclaredTie} {load : EagerLoad} {keys : List Value}

def select (tie : DeclaredTie) (table : String) (load : EagerLoad) (keys : List Value) :
    Select where
  items := projection table load.selected none ++ (tie.toTie table keys).keyItem.toList
  table := table
  join := (tie.toTie table keys).join
  conditions := (tie.toTie table keys).conditions ++ Predicate.conditions table load.predicates
  orders := ordersOf table none load.orders
  limit := none
  offset := none

theorem truths_typeTest (typeTest : Option (String × String)) (scope : Scope Cell) :
    (∀ t ∈ Condition.truths (engine.truth scope.value) (typeTest.toList.map fun test =>
      equalsText ⟨table, test.1⟩ test.2), t = .yes) ↔
      engine.HasType typeTest (scope.record table) := by
  cases typeTest with
  | none => simp [Condition.truths, Engine.HasType]
  | some test =>
    simp only [Option.toList_some, List.map_cons, List.map_nil, Condition.truths,
      List.forall_mem_singleton, Engine.HasType, Option.mem_some, forall_eq']
    rfl

/-- The select keeps a scope in which the tie's key is asked for, the type is right, and the load
admits the related row. -/
theorem keeps_iff {scope : Scope Cell} {x : Record Cell}
    (h : ∀ column ∈ Predicate.columnsOf load.predicates,
      scope.value (.resolve table column) = Scope.value [(table, x)] (.resolve table column)) :
    (tie.select table load keys).Keeps engine scope ↔
      (∃ key, (scope.record (tie.keyTable table)).value tie.keyColumn = some key ∧
        engine.IsAmong keys key) ∧
      engine.HasType tie.typeTest (scope.record (tie.keyTable table)) ∧
      load.Admits engine table x := by
  have hconditions : (tie.toTie table keys).conditions =
      isOneOf ⟨tie.keyTable table, tie.keyColumn⟩ keys ::
        tie.typeTest.toList.map fun test => equalsText ⟨tie.keyTable table, test.1⟩ test.2 := by
    cases tie <;> rfl
  have hkey : (isOneOf ⟨tie.keyTable table, tie.keyColumn⟩ keys).truth
      (engine.truth scope.value) = .yes ↔
        ∃ key, (scope.record (tie.keyTable table)).value tie.keyColumn = some key ∧
          engine.IsAmong keys key := engine.truth_isIn_eq_yes_iff scope.value
  change Truth.conjunction (Condition.truths (engine.truth scope.value)
    ((tie.toTie table keys).conditions ++ Predicate.conditions table load.predicates)) = .yes ↔ _
  rw [Truth.conjunction_eq_yes_iff, Condition.truths_append, List.forall_mem_append, hconditions,
    Condition.truths, List.forall_mem_cons, hkey, truths_typeTest, Predicate.truths_conditions,
    Predicate.truths_congr engine h, EagerLoad.Admits, Truth.conjunction_eq_yes_iff, and_assoc]

theorem shown_projection
    (h : ∀ column ∈ load.selected, (ColumnRef.resolve table column).table = table)
    (scope : Scope Cell) :
    (projection table load.selected none).flatMap (Item.shown engine scope) =
      load.shown table (scope.record table) := by
  unfold projection EagerLoad.shown
  cases hselected : load.selected.isEmpty with
  | true => simp [Item.shown]
  | false =>
    simp only [Bool.false_eq_true, if_false, List.flatMap_map]
    rw [List.map_eq_flatMap]
    refine List.flatMap_congr fun column hcolumn => ?_
    change [(_, (scope.record (ColumnRef.resolve table column).table).value _)] = _
    rw [h column hcolumn]

end DeclaredTie

theorem EagerLoad.value_shown {Cell : Type} {load : EagerLoad} {table name : String}
    (h : load.selected = [] ∨
      ∃ column ∈ load.selected, (ColumnRef.resolve table column).column = name)
    (x : Record Cell) : (load.shown table x).value name = x.value name := by
  unfold shown
  by_cases hempty : load.selected = []
  · rw [hempty]
    rfl
  · obtain ⟨column, hcolumn, hname⟩ := h.resolve_left hempty
    have hisEmpty : load.selected.isEmpty = false := by simpa using hempty
    simp only [hisEmpty, Bool.false_eq_true, if_false]
    refine Record.value_eq_of_forall (List.mem_map.mpr ⟨column, hcolumn, by rw [hname]⟩) ?_
    intro y hy
    obtain ⟨other, -, hother⟩ := List.mem_map.mp hy
    obtain ⟨hname', rfl⟩ := Prod.mk.inj hother
    rw [hname']

/-! ### Rows for a key -/

namespace DeclaredTie

variable {Cell : Type} {engine : Engine Cell} {contents : Contents Cell} {table : String}
  {tie : DeclaredTie} {load : EagerLoad} {keys : List Value}

def keyIn (tie : DeclaredTie) (table : String) (scope : Scope Cell) : Option Cell :=
  (scope.record (tie.keyTable table)).value tie.keyColumn

def Holds (tie : DeclaredTie) (engine : Engine Cell) (table : String) (key : Cell)
    (scope : Scope Cell) : Prop :=
  tie.keyIn table scope = some key ∧
    engine.HasType tie.typeTest (scope.record (tie.keyTable table))

instance [DecidableEq Cell] (key : Cell) (scope : Scope Cell) :
    Decidable (tie.Holds engine table key scope) := inferInstanceAs (Decidable (_ ∧ _))

theorem scopesOf_own (keyColumn : String) (typeTest : Option (String × String))
    (x : Record Cell) :
    ((own keyColumn typeTest).select table load keys).scopesOf engine contents x =
      {[(table, x)]} := rfl

theorem scopesOf_second (other keyColumn joinColumn ownColumn : String)
    (typeTest : Option (String × String)) (x : Record Cell) :
    ((second other keyColumn joinColumn ownColumn typeTest).select table load keys).scopesOf
        engine contents x =
      ((contents other).map fun y => [(table, x), (other, y)]).filter fun scope : Scope Cell =>
        engine.equality ((scope.record other).value joinColumn)
          ((scope.record table).value ownColumn) = .yes := rfl

/-- A scope of a related row has this row under its table. The record of the second table, if there
is one, is not read by the predicates. -/
theorem record_of_mem_scopesOf (h : tie.Separate table load) {x : Record Cell} {scope : Scope Cell}
    (hscope : scope ∈ (tie.select table load keys).scopesOf engine contents x) :
    scope.record table = x ∧ ∀ column ∈ Predicate.columnsOf load.predicates,
      scope.value (.resolve table column) = Scope.value [(table, x)] (.resolve table column) := by
  cases tie with
  | own keyColumn typeTest =>
    rw [scopesOf_own, Multiset.mem_singleton] at hscope
    subst hscope
    exact ⟨Scope.record_cons_self table x [], fun _ _ => rfl⟩
  | second other keyColumn joinColumn ownColumn typeTest =>
    rw [scopesOf_second, Multiset.mem_filter, Multiset.mem_map] at hscope
    obtain ⟨⟨y, -, rfl⟩, -⟩ := hscope
    refine ⟨Scope.record_cons_self table x _, fun column hcolumn => ?_⟩
    have hne : (ColumnRef.resolve table column).table ≠ other := fun he =>
      h.filtered column hcolumn (congrArg some he.symm)
    unfold Scope.value
    by_cases htable : (ColumnRef.resolve table column).table = table
    · simp [htable]
    · simp [htable, hne]

theorem shown_select (h : tie.Separate table load) (scope : Scope Cell) :
    (tie.select table load keys).shown engine scope =
      load.shown table (scope.record table) ++ tie.keyShown (tie.keyIn table scope) := by
  change (projection table load.selected none ++ (tie.toTie table keys).keyItem.toList).flatMap
    (Item.shown engine scope) = _
  rw [List.flatMap_append, shown_projection h.projected]
  congr 1
  cases tie <;> rfl

theorem value_shown_select (h : tie.Separate table load) (scope : Scope Cell) :
    ((tie.select table load keys).shown engine scope).value tie.joinColumn =
      tie.keyIn table scope := by
  rw [shown_select h]
  cases tie with
  | own keyColumn typeTest =>
    have hkey := h.keyProjected.imp_right fun hkey => hkey.resolve_left nofun
    exact (congrArg (Record.value · keyColumn) (List.append_nil _)).trans
      (EagerLoad.value_shown hkey _)
  | second other keyColumn joinColumn ownColumn typeTest =>
    exact Record.value_append_singleton _ _ _

/-- A scope is kept and shows a key if the key is asked for, the load admits the related row, and
the scope ties the row to the key. -/
theorem kept_for_iff (h : tie.Separate table load) {x : Record Cell} {scope : Scope Cell}
    (hscope : scope ∈ (tie.select table load keys).scopesOf engine contents x) (key : Cell) :
    (tie.select table load keys).Keeps engine scope ∧
        ((tie.select table load keys).shown engine scope).value tie.joinColumn = some key ↔
      (engine.IsAmong keys key ∧ load.Admits engine table x) ∧
        tie.Holds engine table key scope := by
  rw [keeps_iff (record_of_mem_scopesOf h hscope).2, value_shown_select h]
  constructor
  · rintro ⟨⟨⟨other, hother, hamong⟩, htype, hadmits⟩, hkey⟩
    obtain rfl : other = key := Option.some.inj (hother.symm.trans hkey)
    exact ⟨⟨hamong, hadmits⟩, hkey, htype⟩
  · rintro ⟨⟨hamong, hadmits⟩, hkey, htype⟩
    exact ⟨⟨⟨key, hkey, hamong⟩, htype, hadmits⟩, hkey⟩

variable [DecidableEq Cell]

/-- A related row has as many scopes for a key as it belongs to it. -/
theorem countP_holds (hapart : tie.secondTable? ≠ some table) (x : Record Cell) (key : Cell) :
    ((tie.select table load keys).scopesOf engine contents x).countP
        (tie.Holds engine table key) = tie.times engine contents x key := by
  cases tie with
  | own keyColumn typeTest =>
    have hiff : (own keyColumn typeTest).Holds engine table key [(table, x)] ↔
        x.value keyColumn = some key ∧ engine.HasType typeTest x := by
      change (Scope.record [(table, x)] table).value keyColumn = some key ∧
        engine.HasType typeTest (Scope.record [(table, x)] table) ↔ _
      simp
    rw [scopesOf_own, times, Multiset.countP_eq_card_filter, Multiset.filter_singleton]
    by_cases hholds : x.value keyColumn = some key ∧ engine.HasType typeTest x
    · rw [if_pos (hiff.mpr hholds), if_pos hholds, Multiset.card_singleton]
    · rw [if_neg fun hkept => hholds (hiff.mp hkept), if_neg hholds]
      rfl
  | second other keyColumn joinColumn ownColumn typeTest =>
    have hne : other ≠ table := fun he => hapart (congrArg some he)
    rw [scopesOf_second, times, Multiset.countP_filter, Multiset.countP_map,
      Multiset.countP_eq_card_filter]
    congr 1
    refine Multiset.filter_congr fun y _ => ?_
    have hother : Scope.record [(table, x), (other, y)] other = y := by
      simp [hne]
    have hown : Scope.record [(table, x), (other, y)] table = x :=
      Scope.record_cons_self table x _
    change (((Scope.record _ other).value keyColumn = some key ∧
      engine.HasType typeTest (Scope.record _ other)) ∧ _) ↔ _
    rw [hother, hown, and_assoc, and_comm (a := engine.HasType typeTest y)]

/-- The scopes of one related row that are kept for a key show the same. -/
theorem found_for_row (h : tie.Separate table load) (x : Record Cell) (key : Cell) :
    (((tie.select table load keys).scopesOf engine contents x).filter fun scope =>
        (tie.select table load keys).Keeps engine scope ∧
          ((tie.select table load keys).shown engine scope).value tie.joinColumn = some key).map
        ((tie.select table load keys).shown engine) =
      if engine.IsAmong keys key ∧ load.Admits engine table x then
        .replicate (tie.times engine contents x key)
          (load.shown table x ++ tie.keyShown (some key))
      else 0 := by
  rw [Multiset.filter_congr fun scope hscope => kept_for_iff h hscope key]
  by_cases hrow : engine.IsAmong keys key ∧ load.Admits engine table x
  · simp only [hrow, true_and, and_self, if_true]
    have hsame : ∀ scope ∈ ((tie.select table load keys).scopesOf engine contents x).filter
        (tie.Holds engine table key), (tie.select table load keys).shown engine scope =
          load.shown table x ++ tie.keyShown (some key) := by
      intro scope hscope
      obtain ⟨hmem, hkey, -⟩ := Multiset.mem_filter.mp hscope
      rw [shown_select h, (record_of_mem_scopesOf h hmem).1, hkey]
    rw [Multiset.map_congr rfl hsame, Multiset.map_const', ← Multiset.countP_eq_card_filter,
      countP_holds h.apart]
  · rw [if_neg hrow]
    have hnone : ((tie.select table load keys).scopesOf engine contents x).filter (fun scope =>
        (engine.IsAmong keys key ∧ load.Admits engine table x) ∧
          tie.Holds engine table key scope) = 0 :=
      Multiset.filter_eq_nil.mpr fun _ _ hholds => hrow hholds.1
    rw [hnone, Multiset.map_zero]

end DeclaredTie

namespace Relation

theorem relationSelect_eq {relation : Relation} {related : Entity} {tie : DeclaredTie}
    (h : relation.declaredTie? related = some tie)
    (hundotted : ∀ column ∈ tie.columns, Undotted column) (load : EagerLoad) (keys : List Value) :
    relationSelect relation related load keys = tie.select related.table load keys := by
  unfold relationSelect
  rw [tieOf_eq h hundotted]
  rfl

/-- The rows that the select of related rows finds for a key are the related rows that satisfy the
load, each as often as it belongs to the key, if the key is asked for. -/
theorem related_rows_joined {Cell : Type} [DecidableEq Cell] (engine : Engine Cell)
    (contents : Contents Cell) {relation : Relation} (hb : relation.Built) (related : Entity) :
    ∃ tie, relation.declaredTie? related = some tie ∧
      ∀ (load : EagerLoad) (keys : List Value), tie.Separate related.table load → ∀ key : Cell,
        ((relationSelect relation related load keys).rows engine contents).filter
            (fun row => Record.value row relation.relatedJoinColumn = some key) =
          if engine.IsAmong keys key then
            ((contents related.table).filter (load.Admits engine related.table)).bind fun x =>
              .replicate (tie.times engine contents x key)
                (load.shown related.table x ++ tie.keyShown (some key))
          else 0 := by
  obtain ⟨tie, htie⟩ := hb.exists_declaredTie related
  refine ⟨tie, htie, fun load keys hseparate key => ?_⟩
  rw [relationSelect_eq htie hseparate.undotted, relatedJoinColumn_eq htie, Select.filter_rows,
    Multiset.bind_congr fun x _ => tie.found_for_row hseparate x key]
  change (contents related.table).bind _ = _
  by_cases hamong : engine.IsAmong keys key
  · simp only [hamong, true_and, if_true, Multiset.bind_filter]
  · simp only [hamong, false_and, if_false, Multiset.bind_zero]

/-! ### Tags of posts -/

/-- An engine that holds texts. It orders them by their characters, behind all numbers. -/
def textEngine : Engine String where
  order stored value :=
    match value with
    | .text bound => compareOfLessAndEq stored bound
    | _ => .gt
  equal stored other := stored == other
  text stored := stored
  same p c := p == c
  finds _ _ := .no
  relevance _ _ := none

def taggedPosts : Relation :=
  .morphToMany "tags" "taggables" "taggable_id" "tag_id" "taggable_type" "post"

def tagTie : DeclaredTie :=
  .second "taggables" "taggable_id" "tag_id" "id" (some ("taggable_type", "post"))

def namedTags : EagerLoad := ⟨some ["tags.name"], [.like "name" "r%" false none], []⟩

def tag (id name : String) : Record String := [("id", some id), ("name", some name)]

def taggable (tagId id typeValue : String) : Record String :=
  [("tag_id", some tagId), ("taggable_id", some id), ("taggable_type", some typeValue)]

/-- Post 7 has a tag twice and two other ones. A video has the same number. -/
def tagContents : Contents String
  | "tags" => {tag "1" "rust", tag "2" "lean", tag "3" "ruby"}
  | "taggables" => {taggable "1" "7" "post", taggable "1" "7" "post", taggable "2" "7" "post",
      taggable "3" "7" "video", taggable "3" "8" "post"}
  | _ => 0

/-- Post 7 has the tag twice, and neither by the row of the video nor by the tag of post 8. -/
theorem related_rows_joined_of_tags :
    taggedPosts.Built ∧ taggedPosts.declaredTie? (.ofTable "tags" "tags") = some tagTie ∧
      tagTie.Separate "tags" namedTags ∧
      ((relationSelect taggedPosts (.ofTable "tags" "tags") namedTags [.text "7"]).rows textEngine
        tagContents).filter
          (fun row => Record.value row taggedPosts.relatedJoinColumn = some "7") =
        {[("name", some "rust"), (pivotAlias, some "7")],
          [("name", some "rust"), (pivotAlias, some "7")]} := by
  have hb : taggedPosts.Built := .morphToMany ..
  have hseparate : tagTie.Separate "tags" namedTags :=
    ⟨by decide, by decide, by decide, by decide, .inr (.inl rfl)⟩
  obtain ⟨tie, htie, hrows⟩ :=
    related_rows_joined textEngine tagContents hb (.ofTable "tags" "tags")
  obtain rfl : tagTie = tie := Option.some.inj htie
  refine ⟨hb, rfl, hseparate, (hrows namedTags [.text "7"] hseparate "7").trans ?_⟩
  decide

end Relation

end RestQuery
