import Mathlib.Tactic.SplitIfs
import RestQuery.Clean
import RestQuery.Proofs.Dict
import RestQuery.Proofs.Level

/-!
# What cleaning leaves

A place in a row is reached by going down relations, through the row or the array of rows under
each. Cleaning decides about every key by the relation path of its place alone, so each place of a
cleaned row is the same place of the row before, less some keys, and a second cleaning finds nothing
to remove. The path is written with dots, and the root has the empty path. So a relation whose name
is empty leads from the root to the path of the root, and what lies below is cleaned as if that
relation had not been followed.
-/

namespace RestQuery

/-- A way down from a row: to the row under a key, or to one in the array there. -/
structure Descent where
  key : String
  index : Option Nat
deriving DecidableEq

namespace Json

def rowAt? : Option Nat → Json → Option Row
  | none, object fields => some fields
  | some i, array items => items[i]?.bind asObject
  | _, _ => none

/-- A row in an array without its fields; anything else as it is. -/
def emptiedItem : Json → Json
  | object _ => object []
  | value => value

def emptied : Json → Json
  | array items => array (items.map emptiedItem)
  | value => value.emptiedItem

end Json

namespace Cleaner

variable (c : Cleaner)

/-- The row at a place below a row, with its entity. Owners of polymorphic relations are no such
places. -/
def rowAt : Entity → Row → List Descent → Option (Entity × Row)
  | entity, row, [] => some (entity, row)
  | entity, row, d :: rest =>
    match (entity.relation? d.key).bind c.entityOf, (row.get? d.key).bind (Json.rowAt? d.index) with
    | some target, some child => rowAt target child rest
    | _, _ => none

/-! ### One row -/

def cleanUnder (relation : Relation) (path : String) (value : Json) : Json :=
  match c.entityOf relation with
  | some related => c.cleanRelated related path value
  | none => value

/-- What is left of the value of a key, `none` if the key goes. -/
def cleanField (entity : Entity) (path key : String) (value : Json) : Option Json :=
  match entity.relation? key with
  | some relation =>
    if c.keepsRelation (pathBelow path key) then
      some (c.cleanUnder relation (pathBelow path key) value)
    else none
  | none => if c.keepsColumn entity path key then some value else none

variable {c}

theorem cleanRow_cons (entity : Entity) (path key : String) (value : Json) (rest : Row) :
    c.cleanRow entity path ((key, value) :: rest) =
      match c.cleanField entity path key value with
      | some value' => (key, value') :: c.cleanRow entity path rest
      | none => c.cleanRow entity path rest := by
  rw [cleanRow, cleanField]
  cases entity.relation? key with
  | none => by_cases hkeep : c.keepsColumn entity path key = true <;> simp [hkeep]
  | some relation =>
    by_cases hkeep : c.keepsRelation (pathBelow path key) = true
    · cases htarget : c.entityOf relation <;> simp [hkeep, cleanUnder, htarget]
    · simp [hkeep]

/-- Whether a key stays does not depend on its value. -/
theorem cleanField_isSome (entity : Entity) (path key : String) (value value' : Json) :
    (c.cleanField entity path key value).isSome = (c.cleanField entity path key value').isSome := by
  unfold cleanField
  cases entity.relation? key with
  | none => dsimp only; split <;> rfl
  | some relation => dsimp only; split <;> rfl

theorem get?_cleanRow (entity : Entity) (path key : String) (row : Row) :
    (c.cleanRow entity path row).get? key =
      (row.get? key).bind (c.cleanField entity path key) := by
  induction row with
  | nil => rw [cleanRow, Dict.get?, Option.bind_none]
  | cons field rest ih =>
    obtain ⟨own, value⟩ := field
    rw [cleanRow_cons]
    by_cases hkey : own = key
    · subst hkey
      have hfirst : Dict.get? ((own, value) :: rest) own = some value := by simp [Dict.get?]
      rw [hfirst, Option.bind_some]
      cases hfield : c.cleanField entity path own value with
      | some value' => simp [Dict.get?]
      | none =>
        dsimp only
        rw [ih, Option.bind_eq_none_iff]
        intro later _
        have hgone := cleanField_isSome (c := c) entity path own later value
        rw [hfield] at hgone
        exact Option.isNone_iff_eq_none.mp (by simpa using hgone)
    · have hrest : Dict.get? ((own, value) :: rest) key = Dict.get? rest key := by
        simp [Dict.get?, hkey]
      rw [hrest, ← ih]
      cases c.cleanField entity path own value with
      | some value' => simp [Dict.get?, hkey]
      | none => rfl

theorem cleanItems_eq_map (entity : Entity) (path : String) (items : List Json) :
    c.cleanItems entity path items = items.map (c.cleanItem entity path) := by
  induction items with
  | nil => rw [cleanItems, List.map_nil]
  | cons item items ih => rw [cleanItems, ih, List.map_cons]

theorem emptiedItem_cleanItem (entity : Entity) (path : String) (item : Json) :
    (c.cleanItem entity path item).emptiedItem = item.emptiedItem := by
  cases item <;> simp [cleanItem, Json.emptiedItem]

theorem emptied_cleanRelated (entity : Entity) (path : String) (value : Json) :
    (c.cleanRelated entity path value).emptied = value.emptied := by
  cases value with
  | array items =>
    simp only [cleanRelated, cleanItems_eq_map, Json.emptied, List.map_map]
    congr 1
    exact List.map_congr_left fun item _ => emptiedItem_cleanItem entity path item
  | object fields => simp [cleanRelated, Json.emptied, Json.emptiedItem]
  | _ => simp [cleanRelated]

theorem rowAt?_cleanRelated (entity : Entity) (path : String) (index : Option Nat) (value : Json) :
    (c.cleanRelated entity path value).rowAt? index =
      (value.rowAt? index).map (c.cleanRow entity path) := by
  cases value with
  | array items =>
    rw [cleanRelated, cleanItems_eq_map]
    cases index with
    | none => rfl
    | some i =>
      simp only [Json.rowAt?, List.getElem?_map, Option.bind_map]
      cases items[i]? with
      | none => rfl
      | some item => cases item <;> simp [cleanItem, Json.asObject]
  | object fields => cases index <;> simp [cleanRelated, Json.rowAt?]
  | _ => cases index <;> simp [cleanRelated, Json.rowAt?]

/-! ### Cleaning twice -/

mutual

theorem cleanRow_cleanRow (entity : Entity) (path : String) : ∀ row : Row,
    c.cleanRow entity path (c.cleanRow entity path row) = c.cleanRow entity path row
  | [] => by rw [cleanRow, cleanRow]
  | (key, value) :: rest => by
    rw [cleanRow_cons]
    have hrest := cleanRow_cleanRow entity path rest
    cases hfield : c.cleanField entity path key value with
    | none => exact hrest
    | some value' =>
      dsimp only
      rw [cleanRow_cons, hrest]
      have hvalue : c.cleanField entity path key value' = some value' := by
        unfold cleanField at hfield ⊢
        cases hrel : entity.relation? key with
        | none =>
          simp only [hrel] at hfield ⊢
          split_ifs at hfield ⊢
          rfl
        | some relation =>
          simp only [hrel] at hfield ⊢
          split_ifs at hfield ⊢
          obtain rfl := Option.some.inj hfield
          unfold cleanUnder
          cases c.entityOf relation with
          | none => rfl
          | some related => dsimp only; rw [cleanRelated_cleanRelated related _ value]
      rw [hvalue]

theorem cleanRelated_cleanRelated (entity : Entity) (path : String) : ∀ value : Json,
    c.cleanRelated entity path (c.cleanRelated entity path value) =
      c.cleanRelated entity path value
  | .object fields => by
    rw [cleanRelated, cleanRelated, cleanRow_cleanRow entity path fields]
  | .array items => by
    rw [cleanRelated, cleanRelated, cleanItems_cleanItems entity path items]
  | .null => by simp [cleanRelated]
  | .bool _ => by simp [cleanRelated]
  | .number _ => by simp [cleanRelated]
  | .text _ => by simp [cleanRelated]

theorem cleanItems_cleanItems (entity : Entity) (path : String) : ∀ items : List Json,
    c.cleanItems entity path (c.cleanItems entity path items) = c.cleanItems entity path items
  | [] => by rw [cleanItems, cleanItems]
  | item :: rest => by
    rw [cleanItems, cleanItems, cleanItem_cleanItem entity path item,
      cleanItems_cleanItems entity path rest]

theorem cleanItem_cleanItem (entity : Entity) (path : String) : ∀ item : Json,
    c.cleanItem entity path (c.cleanItem entity path item) = c.cleanItem entity path item
  | .object fields => by rw [cleanItem, cleanItem, cleanRow_cleanRow entity path fields]
  | .array _ => by simp [cleanItem]
  | .null => by simp [cleanItem]
  | .bool _ => by simp [cleanItem]
  | .number _ => by simp [cleanItem]
  | .text _ => by simp [cleanItem]

end

/-! ### Places -/

/-- The path that cleaning has reached when it went down some relations. -/
def pathAfter (names : List String) : String := names.foldl pathBelow ""

theorem pathAfter_concat (names : List String) (name : String) :
    pathAfter (names ++ [name]) = pathBelow (pathAfter names) name := by
  simp [pathAfter]

/-- What was reached below a cleaned row was there before, and is itself cleaned. -/
theorem rowAt_cleanRow {entity target : Entity} {row after : Row} {place : List Descent}
    {names : List String}
    (h : c.rowAt entity (c.cleanRow entity (pathAfter names) row) place = some (target, after)) :
    ∃ before, c.rowAt entity row place = some (target, before) ∧
      after = c.cleanRow target (pathAfter (names ++ place.map Descent.key)) before := by
  induction place generalizing entity row names with
  | nil =>
    obtain ⟨rfl, rfl⟩ := Prod.mk.inj (Option.some.inj h)
    exact ⟨row, rfl, by simp⟩
  | cons d rest ih =>
    rw [rowAt] at h ⊢
    split at h
    · next related child hrelated hchild =>
      obtain ⟨relation, hrel, hentity⟩ := Option.bind_eq_some_iff.mp hrelated
      -- the value that stays under the relation is the cleaned one
      rw [get?_cleanRow, Option.bind_assoc] at hchild
      obtain ⟨value, hvalue, hfield⟩ := Option.bind_eq_some_iff.mp hchild
      obtain ⟨value', hleft, hrow⟩ := Option.bind_eq_some_iff.mp hfield
      rw [cleanField, hrel] at hleft
      dsimp only at hleft
      split_ifs at hleft
      obtain rfl := Option.some.inj hleft
      rw [cleanUnder, hentity] at hrow
      dsimp only at hrow
      rw [rowAt?_cleanRelated, ← pathAfter_concat] at hrow
      obtain ⟨child', hchild', rfl⟩ := Option.map_eq_some_iff.mp hrow
      obtain ⟨before, hbefore, hafter⟩ := ih h
      refine ⟨before, ?_, by simpa using hafter⟩
      rw [hrelated, hvalue, Option.bind_some, hchild']
      exact hbefore
    · cases h

/-! ### Levels -/

theorem pathBelow_ne_empty {path : String} (h : path ≠ "") (name : String) :
    pathBelow path name ≠ "" := by
  rw [pathBelow, if_neg h]
  intro hempty
  have hlength := congrArg String.length hempty
  simp at hlength

theorem foldl_pathBelow {path : String} (h : path ≠ "") (names : List String) :
    names.foldl pathBelow path ≠ "" ∧
      names.foldl (fun above name => some (ExpandClause.pathBelow above name)) (some path) =
        some (names.foldl pathBelow path) := by
  induction names generalizing path with
  | nil => exact ⟨h, rfl⟩
  | cons name names ih =>
    have hbelow : pathBelow path name = path ++ "." ++ name := if_neg h
    rw [List.foldl_cons, List.foldl_cons, ExpandClause.pathBelow, ← hbelow]
    exact ih (pathBelow_ne_empty h name)

/-- The level of a place, where relations with the empty name are not followed from the root. -/
def levelOf (place : List Descent) : List String :=
  (place.map Descent.key).dropWhile (· = "")

theorem pathAfter_eq (names : List String) :
    pathTo (names.dropWhile (· = "")) =
      if pathAfter names = "" then none else some (pathAfter names) := by
  induction names with
  | nil => rfl
  | cons name names ih =>
    by_cases hname : name = ""
    · subst hname
      exact ih
    · obtain ⟨hne, hpath⟩ := foldl_pathBelow hname names
      have hafter : pathAfter (name :: names) = names.foldl pathBelow name := rfl
      rw [List.dropWhile_cons_of_neg (by simpa using hname), hafter, if_neg hne, ← hpath]
      rfl

def columnsAt (c : Cleaner) (level : List String) : Option (List String) :=
  c.columns.bind fun selected =>
    match pathTo level with
    | some path => selected.paths.get? path
    | none => selected.root

section Kept

variable {names : List String} {entity : Entity} {key : String}

theorem keepsRelation_iff :
    c.keepsRelation (pathBelow (pathAfter names) key) = true ↔ ∀ kept, c.relations = some kept →
      ExpandClause.pathBelow (pathTo (names.dropWhile (· = ""))) key ∈ kept := by
  have hpath : ExpandClause.pathBelow (pathTo (names.dropWhile (· = ""))) key =
      pathBelow (pathAfter names) key := by
    rw [pathAfter_eq, pathBelow]
    split <;> rfl
  rw [hpath, keepsRelation]
  cases c.relations <;> simp

theorem keepsColumn_iff :
    c.keepsColumn entity (pathAfter names) key = true ↔
      ∀ columns, c.columnsAt (names.dropWhile (· = "")) = some columns →
        key ∈ columns ∨ entity.isComputed key = true ∨
          names.dropWhile (· = "") = [] ∧ key = c.scoreColumn := by
  have hcolumns : c.columnsAt (names.dropWhile (· = "")) =
      c.columns.bind (·.at? (pathAfter names)) := by
    unfold columnsAt SelectedColumns.at?
    rw [pathAfter_eq]
    by_cases hempty : pathAfter names = "" <;> simp only [hempty, if_true, if_false]
  have hroot : names.dropWhile (· = "") = [] ↔ pathAfter names = "" := by
    rw [← pathTo_eq_none_iff, pathAfter_eq]
    split <;> simp_all
  rw [hcolumns, hroot, keepsColumn]
  cases c.columns.bind (·.at? (pathAfter names)) with
  | none => simp
  | some columns => simp [or_assoc]

end Kept

structure CleanedAt (c : Cleaner) (entity : Entity) (level : List String) (before after : Row) :
    Prop where
  relation_iff : ∀ ⦃key relation⦄, entity.relation? key = some relation →
    (after.contains key = true ↔ before.contains key = true ∧
      ∀ kept, c.relations = some kept → ExpandClause.pathBelow (pathTo level) key ∈ kept)
  column_iff : ∀ ⦃key⦄, entity.relation? key = none →
    (after.contains key = true ↔ before.contains key = true ∧
      ∀ columns, c.columnsAt level = some columns →
        key ∈ columns ∨ entity.isComputed key = true ∨ level = [] ∧ key = c.scoreColumn)
  column_eq : ∀ ⦃key value⦄, entity.relation? key = none → after.get? key = some value →
    before.get? key = some value
  related_eq : ∀ ⦃key relation value⦄, entity.relation? key = some relation →
    after.get? key = some value → ∃ value', before.get? key = some value' ∧
      value.emptied = value'.emptied ∧ (c.entityOf relation = none → value = value')

theorem cleanedAt_cleanRow (entity : Entity) (names : List String) (row : Row) :
    c.CleanedAt entity (names.dropWhile (· = "")) row
      (c.cleanRow entity (pathAfter names) row) where
  relation_iff := by
    intro key relation hrel
    rw [← keepsRelation_iff, Dict.contains, Dict.contains, get?_cleanRow]
    cases row.get? key with
    | none => simp
    | some value =>
      simp only [Option.bind_some, cleanField, hrel]
      split <;> simp_all
  column_iff := by
    intro key hrel
    rw [← keepsColumn_iff, Dict.contains, Dict.contains, get?_cleanRow]
    cases row.get? key with
    | none => simp
    | some value =>
      simp only [Option.bind_some, cleanField, hrel]
      split <;> simp_all
  column_eq := by
    intro key value hrel hafter
    rw [get?_cleanRow] at hafter
    obtain ⟨value', hvalue', hfield⟩ := Option.bind_eq_some_iff.mp hafter
    simp only [cleanField, hrel] at hfield
    split_ifs at hfield
    rw [hvalue', hfield]
  related_eq := by
    intro key relation value hrel hafter
    rw [get?_cleanRow] at hafter
    obtain ⟨value', hvalue', hfield⟩ := Option.bind_eq_some_iff.mp hafter
    simp only [cleanField, hrel] at hfield
    split_ifs at hfield
    obtain rfl := Option.some.inj hfield
    refine ⟨value', hvalue', ?_, fun hentity => by rw [cleanUnder, hentity]⟩
    unfold cleanUnder
    cases c.entityOf relation with
    | none => rfl
    | some related => exact emptied_cleanRelated related _ value'

/-- Cleaned rows are cleaned at every place: a relation stays where its path may stay, and any other
key where its level is not restricted or names it; what stays of a row is what was there before. The
level of a place is given by the relations that lead to it, unless the first of them has the empty
name. Cleaning again changes nothing. -/
theorem cleanRows_exact (c : Cleaner) (entity : Entity) (rows : List Row) :
    c.cleanRows entity (c.cleanRows entity rows) = c.cleanRows entity rows ∧
    (c.cleanRows entity rows).length = rows.length ∧
    ∀ {i : Nat} {cleaned : Row} {place : List Descent} {target : Entity} {after : Row},
      (c.cleanRows entity rows)[i]? = some cleaned →
      c.rowAt entity cleaned place = some (target, after) →
      (∃ row before, rows[i]? = some row ∧ c.rowAt entity row place = some (target, before) ∧
        c.CleanedAt target (levelOf place) before after) ∧
      ((place.map Descent.key).head? ≠ some "" → levelOf place = place.map Descent.key) := by
  refine ⟨?_, by simp [cleanRows], ?_⟩
  · simp only [cleanRows, List.map_map]
    exact List.map_congr_left fun row _ => cleanRow_cleanRow entity "" row
  · intro i cleaned place target after hcleaned hafter
    rw [cleanRows, List.getElem?_map] at hcleaned
    obtain ⟨row, hrow, rfl⟩ := Option.map_eq_some_iff.mp hcleaned
    have hroot : c.cleanRow entity "" row = c.cleanRow entity (pathAfter []) row := rfl
    rw [hroot] at hafter
    obtain ⟨before, hbefore, rfl⟩ := rowAt_cleanRow hafter
    refine ⟨⟨row, before, hrow, hbefore, cleanedAt_cleanRow target _ before⟩, fun hfirst => ?_⟩
    unfold levelOf
    cases hnames : place.map Descent.key with
    | nil => rfl
    | cons name names =>
      have hname : name ≠ "" := by
        rintro rfl
        simp [hnames] at hfirst
      rw [List.dropWhile_cons_of_neg (by simpa using hname)]

/-! ### Posts with their comments -/

def repostEntity : Entity :=
  ((Entity.ofTable "posts" "posts").addRelation "" (.hasOne "posts" "repost_id" "id")).addRelation
    "comments" (.hasMany "comments" "post_id" "id")

def repostSchema : Schema := (Schema.empty.add repostEntity).add (.ofTable "comments" "comments")

/-- Keeps the relations at some paths, and of comments nothing but their texts. -/
def commentCleaner (paths : List String) : Cleaner where
  schema := repostSchema
  relations := some paths
  columns := some ⟨none, [("comments", ["text"])]⟩
  scoreColumn := "search_score"

def secondComment : Row := [("id", .ofNat 2), ("text", .text "second")]

def commentedPost : Row :=
  [("comments", .array [.object [("id", .ofNat 1)], .object secondComment]), ("id", .ofNat 7)]

def cleanedPost : Row :=
  [("comments", .array [.object [], .object [("text", .text "second")]]), ("id", .ofNat 7)]

theorem cleanRows_exact_comments :
    (commentCleaner ["comments"]).rowAt repostEntity cleanedPost [⟨"comments", some 1⟩] =
        some (.ofTable "comments" "comments", [("text", .text "second")]) ∧
      (commentCleaner ["comments"]).rowAt repostEntity commentedPost [⟨"comments", some 1⟩] =
        some (.ofTable "comments" "comments", secondComment) ∧
      (commentCleaner ["comments"]).CleanedAt (.ofTable "comments" "comments") ["comments"]
        secondComment [("text", .text "second")] := by
  have hcleaned : ((commentCleaner ["comments"]).cleanRows repostEntity [commentedPost])[0]? =
      some cleanedPost := by cbv
  have hafter : (commentCleaner ["comments"]).rowAt repostEntity cleanedPost
      [⟨"comments", some 1⟩] =
        some (.ofTable "comments" "comments", [("text", .text "second")]) := by cbv
  have hsecond : (commentCleaner ["comments"]).rowAt repostEntity commentedPost
      [⟨"comments", some 1⟩] = some (.ofTable "comments" "comments", secondComment) := by cbv
  obtain ⟨⟨row, before, hrow, hbefore, hexact⟩, hlevel⟩ :=
    (cleanRows_exact (commentCleaner ["comments"]) repostEntity [commentedPost]).2.2 hcleaned hafter
  obtain rfl : commentedPost = row := by simpa using hrow
  have hsame := Option.some.inj (hsecond.symm.trans hbefore)
  obtain rfl : secondComment = before := (Prod.mk.inj hsame).2
  rw [hlevel (by decide)] at hexact
  exact ⟨hafter, hsecond, hexact⟩

/-- The comments of a repeated post may stay, and go. -/
theorem comments_of_repost_removed :
    ∃ before after,
      (commentCleaner ["", ".comments"]).rowAt repostEntity [("", .object commentedPost)]
        [⟨"", none⟩] = some (repostEntity, before) ∧
      (commentCleaner ["", ".comments"]).rowAt repostEntity
        ((commentCleaner ["", ".comments"]).cleanRow repostEntity ""
          [("", .object commentedPost)]) [⟨"", none⟩] = some (repostEntity, after) ∧
      repostEntity.isRelation "comments" = true ∧
      ExpandClause.pathBelow (pathTo [""]) "comments" ∈ ["", ".comments"] ∧
      before.contains "comments" = true ∧ after.contains "comments" = false := by
  have hafter : (commentCleaner ["", ".comments"]).rowAt repostEntity
      ((commentCleaner ["", ".comments"]).cleanRow repostEntity ""
        [("", .object commentedPost)]) [⟨"", none⟩] =
      some (repostEntity, [("id", .ofNat 7)]) := by cbv
  exact ⟨commentedPost, _, rfl, hafter, by cbv, by decide, by decide, by decide⟩

end Cleaner

end RestQuery
