import Mathlib.Data.List.Basic
import RestQuery.Proofs.Expansion.Marks

/-!
# Items of an expansion

A list of paths is accepted when each of its items is, and its expansion holds the marks of all
items. So the columns at a path are read off the list: the parent keys of the relations that some
item follows from there, and where some item ends with columns these columns and the related keys of
its last relation.
-/

namespace RestQuery

open Text

namespace ExpandClause

/-- The marks of an item, or `none` if the item is refused. -/
def itemMarks (ctx : Context) (item : ExpandItem) : Option (List Mark) :=
  if isExpandable ctx item.path then
    marksAlong ctx.schema item.columns ctx.entity [] (pieces '.' item.path)
  else none

theorem take_eq_accept_iff {ctx : Context} (e : Expansion) (item : ExpandItem) (e' : Expansion) :
    take ctx e item = .accept e' ↔ (itemMarks ctx item).isSome ∧
      e' = e.markAll ((itemMarks ctx item).getD []) := by
  unfold take itemMarks
  split
  · change walk ctx item ctx.entity (pathTo []) none e _ = _ ↔ _
    rw [walk_eq_accept_iff]
    cases marksAlong ctx.schema item.columns ctx.entity [] (pieces '.' item.path) <;> simp
  · simp

def items (ctx : Context) (ps : Parameters) : List ExpandItem :=
  ((ctx.param? ps ["expand", "with"]).map ExpandItem.readAll).getD []

def Accepted (ctx : Context) (listed : List ExpandItem) : Prop :=
  ∀ item ∈ listed, (itemMarks ctx item).isSome

def marksOf (ctx : Context) (listed : List ExpandItem) : List Mark :=
  listed.flatMap fun item => (itemMarks ctx item).getD []

/-- Some listed path goes through these segments. -/
def Through (listed : List ExpandItem) (segments : List String) : Prop :=
  ∃ item ∈ listed, segments <+: pieces '.' item.path

theorem foldl_markAll (marks : ExpandItem → List Mark) (listed : List ExpandItem) (e : Expansion) :
    listed.foldl (fun e item => e.markAll (marks item)) e = e.markAll (listed.flatMap marks) := by
  induction listed generalizing e with
  | nil => rfl
  | cons item listed ih => rw [List.foldl_cons, ih, List.flatMap_cons, Expansion.markAll_append]

theorem gather_take_eq_accept_iff {ctx : Context} {listed : List ExpandItem} {e : Expansion} :
    gather (take ctx) .empty listed = .accept e ↔
      Accepted ctx listed ∧ e = Expansion.empty.markAll (marksOf ctx listed) := by
  rw [gather_eq_accept_iff take_eq_accept_iff, foldl_markAll]
  rfl

theorem read_eq_accept_iff {ctx : Context} {ps : Parameters} {clause : ExpandClause} :
    read ctx ps .empty = .accept clause ↔
      gather (take ctx) .empty (items ctx ps) = .accept clause.expansion := by
  obtain ⟨e⟩ := clause
  unfold read items
  cases ctx.param? ps ["expand", "with"] with
  | none => simp [gather, Gathered.accept, empty]
  | some value =>
    cases hg : gather (take ctx) Expansion.empty (ExpandItem.readAll value) with
    | mk state refusal => simp [empty, hg, Gathered.accept]

theorem eq_nil_of_own_ne_nil {after columns : List String}
    (hown : (if after = [] then columns else []) ≠ []) : after = [] := by
  by_contra hafter
  exact hown (if_neg hafter)

section Accepted

variable {ctx : Context} {listed : List ExpandItem} (h : Accepted ctx listed)

include h

theorem Accepted.exists_itemMarks {item : ExpandItem} (hitem : item ∈ listed) :
    ∃ marks, itemMarks ctx item = some marks ∧
      marksAlong ctx.schema item.columns ctx.entity [] (pieces '.' item.path) = some marks := by
  obtain ⟨marks, hmarks⟩ := Option.isSome_iff_exists.mp (h item hitem)
  refine ⟨marks, hmarks, ?_⟩
  unfold itemMarks at hmarks
  split at hmarks
  · exact hmarks
  · cases hmarks

/-- What follows an expanded level is a relation of its entity, and leads to a registered entity if
it names one. -/
theorem Accepted.exists_relationAt {above : List String} {name : String}
    (ht : Through listed (above ++ [name])) :
    ∃ parent relation, RelationAt ctx.schema.expandsTo ctx.entity above name parent relation ∧
      (relation.related ≠ none → relation.related.bind ctx.schema.entity? ≠ none) := by
  obtain ⟨item, hitem, after, hafter⟩ := ht
  obtain ⟨marks, -, hmarks⟩ := h.exists_itemMarks hitem
  have hcut : pieces '.' item.path = above ++ name :: after := by
    rw [← hafter, List.append_assoc, List.singleton_append]
  obtain ⟨parent, relation, hat, -, htarget⟩ := RestQuery.exists_relationAt hmarks hcut
  exact ⟨parent, relation, hat, htarget⟩

/-- A path whose columns are named ends in a relation that takes columns. -/
theorem Accepted.rejectsColumns_eq_false {item : ExpandItem} (hitem : item ∈ listed)
    (hcolumns : item.columns ≠ []) {above : List String} {name : String}
    (hpieces : pieces '.' item.path = above ++ [name]) {parent : Entity} {relation : Relation}
    (hat : RelationAt ctx.schema.expandsTo ctx.entity above name parent relation) :
    relation.kind.rejectsColumns = false := by
  obtain ⟨marks, -, hmarks⟩ := h.exists_itemMarks hitem
  obtain ⟨parent', relation', hat', hrejects, -⟩ := RestQuery.exists_relationAt hmarks hpieces
  obtain ⟨rfl, rfl⟩ := hat.unique hat'
  exact hrejects rfl hcolumns

theorem Accepted.mem_marksOf {m : Mark} :
    m ∈ marksOf ctx listed ↔ ∃ item ∈ listed, ∃ above name after parent relation,
      pieces '.' item.path = above ++ name :: after ∧
      RelationAt ctx.schema.expandsTo ctx.entity above name parent relation ∧
      m ∈ hopMarks parent relation (relation.related.bind ctx.schema.entity?) above name
        (if after = [] then item.columns else []) := by
  unfold marksOf
  rw [List.mem_flatMap]
  refine exists_congr fun item => and_congr_right fun hitem => ?_
  obtain ⟨marks, hitemMarks, hmarks⟩ := h.exists_itemMarks hitem
  rw [hitemMarks, Option.getD_some]
  exact mem_marksAlong hmarks

theorem Accepted.exists_mark_iff {p : Mark → Prop} :
    (∃ m ∈ marksOf ctx listed, p m) ↔ ∃ item ∈ listed, ∃ above name after parent relation,
      pieces '.' item.path = above ++ name :: after ∧
      RelationAt ctx.schema.expandsTo ctx.entity above name parent relation ∧
      ∃ m ∈ hopMarks parent relation (relation.related.bind ctx.schema.entity?) above name
        (if after = [] then item.columns else []), p m := by
  constructor
  · rintro ⟨m, hm, hp⟩
    obtain ⟨item, hitem, above, name, after, parent, relation, hpieces, hat, hm⟩ :=
      h.mem_marksOf.mp hm
    exact ⟨item, hitem, above, name, after, parent, relation, hpieces, hat, m, hm, hp⟩
  · rintro ⟨item, hitem, above, name, after, parent, relation, hpieces, hat, m, hm, hp⟩
    exact ⟨m, h.mem_marksOf.mpr
      ⟨item, hitem, above, name, after, parent, relation, hpieces, hat, hm⟩, hp⟩

/-- Marks are left at the root and at every path through which some item goes. -/
theorem Accepted.mem_keys_iff {path : String} :
    path ∈ (Expansion.empty.markAll (marksOf ctx listed)).paths.keys ↔
      path = rootPath ∧ listed ≠ [] ∨
        ∃ segments, segments ≠ [] ∧ Through listed segments ∧ pathTo segments = some path := by
  have hkeys : path ∈ (Expansion.empty.markAll (marksOf ctx listed)).paths.keys ↔
      ∃ m ∈ marksOf ctx listed, m.path = path := by
    rw [Expansion.mem_keys_markAll]
    simp [Expansion.empty, Dict.keys]
  rw [hkeys, h.exists_mark_iff]
  simp only [exists_hopMark_at]
  constructor
  · rintro ⟨item, hitem, above, name, after, -, -, hpieces, -, hlevel | hown⟩
    · by_cases habove : above = []
      · subst habove
        exact Or.inl ⟨hlevel.symm, List.ne_nil_of_mem hitem⟩
      · refine Or.inr ⟨above, habove, ⟨item, hitem, name :: after, hpieces.symm⟩, ?_⟩
        obtain ⟨own, hown⟩ := Option.ne_none_iff_exists'.mp (mt pathTo_eq_none_iff.mp habove)
        rw [← hlevel, levelPath, hown, Option.getD_some]
    · exact Or.inr ⟨above ++ [name], by simp, ⟨item, hitem, after, by simp [hpieces]⟩, hown⟩
  · rintro (⟨rfl, hlisted⟩ | ⟨segments, hsegments, ⟨item, hitem, after, hafter⟩, hown⟩)
    · obtain ⟨item, hitem⟩ := List.exists_mem_of_ne_nil _ hlisted
      obtain ⟨first, rest, hfirst⟩ := List.exists_cons_of_ne_nil (pieces_ne_nil item.path)
      have hthrough : Through listed ([] ++ [first]) := ⟨item, hitem, rest, by simp [hfirst]⟩
      obtain ⟨parent, relation, hat, -⟩ := h.exists_relationAt hthrough
      exact ⟨item, hitem, [], first, rest, parent, relation, hfirst, hat, Or.inl rfl⟩
    · obtain ⟨above, name, rfl⟩ := (List.eq_nil_or_concat' segments).resolve_left hsegments
      obtain ⟨parent, relation, hat, -⟩ := h.exists_relationAt ⟨item, hitem, after, hafter⟩
      rw [List.append_assoc, List.singleton_append] at hafter
      exact ⟨item, hitem, above, name, after, parent, relation, hafter.symm, hat, Or.inr hown⟩

theorem Accepted.mem_required_iff {path key : String} :
    key ∈ ((Expansion.empty.markAll (marksOf ctx listed)).entry path).required ↔
      (∃ above name parent relation, Through listed (above ++ [name]) ∧ levelPath above = path ∧
        RelationAt ctx.schema.expandsTo ctx.entity above name parent relation ∧
        key ∈ (relation.parentKeys parent.primaryKey).map parent.qualified) ∨
      ∃ item ∈ listed, item.path = path ∧ item.columns ≠ [] ∧
        ∃ above name parent relation target, pieces '.' path = above ++ [name] ∧
          RelationAt ctx.schema.expandsTo ctx.entity above name parent relation ∧
          relation.related.bind ctx.schema.entity? = some target ∧
          key ∈ (relation.relatedKeys (some target.primaryKey)).map target.qualified := by
  have hempty : key ∉ (Expansion.empty.entry path).required := List.not_mem_nil
  rw [Expansion.mem_required_markAll, or_iff_right hempty, h.exists_mark_iff]
  simp only [exists_hopMark_required]
  constructor
  · rintro ⟨item, hitem, above, name, after, parent, relation, hpieces, hat,
      ⟨hlevel, hkey⟩ | ⟨hcolumns, target, htarget, hown, hkey⟩⟩
    · exact Or.inl ⟨above, name, parent, relation, ⟨item, hitem, after, by simp [hpieces]⟩, hlevel,
        hat, hkey⟩
    · obtain rfl := eq_nil_of_own_ne_nil hcolumns
      rw [if_pos rfl] at hcolumns
      rw [← hpieces, pathTo_pieces, Option.some.injEq] at hown
      exact Or.inr ⟨item, hitem, hown, hcolumns, above, name, parent, relation, target,
        by rw [← hown, hpieces], hat, htarget, hkey⟩
  · rintro (⟨above, name, parent, relation, ⟨item, hitem, after, hafter⟩, hlevel, hat, hkey⟩ |
      ⟨item, hitem, rfl, hcolumns, above, name, parent, relation, target, hpieces, hat, htarget,
        hkey⟩)
    · rw [List.append_assoc, List.singleton_append] at hafter
      exact ⟨item, hitem, above, name, after, parent, relation, hafter.symm, hat,
        Or.inl ⟨hlevel, hkey⟩⟩
    · refine ⟨item, hitem, above, name, [], parent, relation, hpieces, hat,
        Or.inr ⟨by simpa using hcolumns, target, htarget, ?_, hkey⟩⟩
      rw [← hpieces, pathTo_pieces]

theorem Accepted.mem_requested_iff {path column : String} :
    column ∈ ((Expansion.empty.markAll (marksOf ctx listed)).entry path).requested ↔
      ∃ item ∈ listed, item.path = path ∧
        ∃ above name parent relation target, pieces '.' path = above ++ [name] ∧
          RelationAt ctx.schema.expandsTo ctx.entity above name parent relation ∧
          relation.related.bind ctx.schema.entity? = some target ∧
          column ∈ item.columns.map target.qualified := by
  have hempty : column ∉ (Expansion.empty.entry path).requested := List.not_mem_nil
  rw [Expansion.mem_requested_markAll, or_iff_right hempty, h.exists_mark_iff]
  simp only [exists_hopMark_requested]
  constructor
  · rintro ⟨item, hitem, above, name, after, parent, relation, hpieces, hat, target, htarget, hown,
      hcolumn⟩
    obtain ⟨own, hown', -⟩ := List.mem_map.mp hcolumn
    obtain rfl := eq_nil_of_own_ne_nil (List.ne_nil_of_mem hown')
    rw [← hpieces, pathTo_pieces, Option.some.injEq] at hown
    exact ⟨item, hitem, hown, above, name, parent, relation, target, by rw [← hown, hpieces], hat,
      htarget, by simpa using hcolumn⟩
  · rintro ⟨item, hitem, rfl, above, name, parent, relation, target, hpieces, hat, htarget, hcolumn⟩
    refine ⟨item, hitem, above, name, [], parent, relation, hpieces, hat, target, htarget, ?_,
      by simpa using hcolumn⟩
    rw [← hpieces, pathTo_pieces]

end Accepted

end ExpandClause

end RestQuery
