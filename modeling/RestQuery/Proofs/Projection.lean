import Mathlib.Data.List.Nodup
import RestQuery.Proofs.Placement
import RestQuery.Proofs.Text.Dotted

/-!
# The projection as a set of columns

Columns are compared as names, by their text once bare names are qualified, and are read as columns
of tables, by their first dot. A column that is read determines its qualified name, so names that
differ there are different columns, also if tables or columns have dots of their own. Adding columns
therefore leaves a projection in which no column stands twice and every name has its place.
-/

namespace RestQuery

open Text Sql

theorem Sql.ColumnRef.qualify_eq (table column : String) :
    qualify table column =
      (resolve table column).table ++ "." ++ (resolve table column).column := by
  cases h : cutFirst '.' column with
  | none =>
    have hcolumn := undotted_of_cutFirst_eq_none h
    rw [qualify_of_undotted table hcolumn, resolve_of_undotted table hcolumn]
  | some cut =>
    obtain ⟨before, after⟩ := cut
    obtain ⟨rfl, hbefore⟩ := eq_dotted_of_cutFirst h
    rw [qualify_of_dotted table (not_undotted_dotted before after),
      resolve_dotted table hbefore]

/-! ### Adding columns -/

section

variable (table : String) (select : List String)

theorem extendSelect_append (columns more : List String) :
    extendSelect table select (columns ++ more) =
      extendSelect table (extendSelect table select columns) more := List.foldl_append

theorem prefix_extendSelect (columns : List String) :
    select <+: extendSelect table select columns := by
  induction columns generalizing select with
  | nil => exact List.prefix_refl select
  | cons column columns ih =>
    rw [extendSelect_cons]
    split
    · exact ih select
    · exact (List.prefix_append select [column]).trans (ih _)

theorem sublist_extendSelect (columns : List String) :
    (extendSelect table select columns).Sublist (select ++ columns) := by
  induction columns generalizing select with
  | nil => exact (List.append_nil select).symm ▸ List.Sublist.refl select
  | cons column columns ih =>
    rw [extendSelect_cons]
    split
    · exact (ih select).trans ((List.sublist_cons_self column columns).append_left select)
    · rw [List.append_cons select column columns]
      exact ih _

/-- A column that is skipped is there under another name. -/
theorem exists_mem_extendSelect {columns : List String} {column : String} (h : column ∈ columns) :
    ∃ entry ∈ extendSelect table select columns, qualify table entry = qualify table column := by
  induction columns generalizing select with
  | nil => cases h
  | cons first columns ih =>
    rw [extendSelect_cons]
    rcases List.mem_cons.mp h with rfl | h
    · split
      · next hany =>
        obtain ⟨present, hpresent, hsame⟩ := List.any_eq_true.mp hany
        exact ⟨present, (prefix_extendSelect table select columns).subset hpresent,
          eq_of_beq hsame⟩
      · exact ⟨column, (prefix_extendSelect table _ columns).subset (by simp), rfl⟩
    · exact ih _ h

variable {table select}

theorem nodup_extendSelect (h : (select.map (qualify table)).Nodup) (columns : List String) :
    ((extendSelect table select columns).map (qualify table)).Nodup := by
  induction columns generalizing select with
  | nil => exact h
  | cons column columns ih =>
    rw [extendSelect_cons]
    split
    · exact ih h
    · next hnone =>
      refine ih ?_
      have hfresh : qualify table column ∉ select.map (qualify table) := by
        rintro hmem
        obtain ⟨present, hpresent, hsame⟩ := List.mem_map.mp hmem
        exact hnone (List.any_eq_true.mpr ⟨present, hpresent, beq_iff_eq.mpr hsame⟩)
      rw [List.map_append, List.map_singleton, ← List.concat_eq_append]
      exact h.concat hfresh

theorem nodup_resolve_of_nodup_qualify (h : (select.map (qualify table)).Nodup) :
    (select.map (ColumnRef.resolve table)).Nodup := by
  have hqualify : select.map (qualify table) =
      (select.map (ColumnRef.resolve table)).map fun ref => ref.table ++ "." ++ ref.column := by
    rw [List.map_map]
    exact List.map_congr_left fun column _ => ColumnRef.qualify_eq table column
  rw [hqualify] at h
  exact h.of_map _

end

/-! ### The entries of a projection -/

namespace Sql

def Item.columns (columnsOf : String → List String) : Item → List ColumnRef
  | everyColumn table => (columnsOf table).map (ColumnRef.mk table)
  | column ref => [ref]
  | labelled ref _ => [ref]
  | score _ _ _ => []

def Item.isScore : Item → Bool
  | score _ _ _ => true
  | _ => false

/-- The projection of a select; that of a count is the one of the rows that it counts. -/
def Statement.items : Statement → List Item
  | select s => s.items
  | count s => s.items

variable {table : String} {columns : List String}

theorem columns_columnItem (columnsOf : String → List String) (score : Option Score) :
    ((columns.map (columnItem table score)).flatMap (Item.columns columnsOf)).Sublist
      (columns.map (ColumnRef.resolve table)) := by
  induction columns with
  | nil => exact List.Sublist.slnil
  | cons column columns ih =>
    have hcolumn : ∀ item : Item,
        item = .column (.resolve table column) ∨ item.columns columnsOf = [] →
        (item.columns columnsOf).Sublist [ColumnRef.resolve table column] := by
      rintro item (rfl | hnone)
      · exact List.Sublist.refl _
      · rw [hnone]
        exact List.nil_sublist _
    rw [List.map_cons, List.flatMap_cons, List.map_cons, ← List.singleton_append]
    refine (hcolumn _ ?_).append ih
    cases score with
    | none => exact .inl rfl
    | some score =>
      by_cases hlabel : score.label = column
      · exact .inr (by rw [columnItem, if_pos hlabel]; rfl)
      · exact .inl (if_neg hlabel)

theorem nodup_columns_projection {columnsOf : String → List String}
    (htable : (columnsOf table).Nodup) (h : (columns.map (ColumnRef.resolve table)).Nodup)
    (score : Option Score) :
    ((projection table columns score).flatMap (Item.columns columnsOf)).Nodup := by
  have hshown : ((if columns.isEmpty then [.everyColumn table]
      else columns.map (columnItem table score)).flatMap (Item.columns columnsOf)).Nodup := by
    cases columns with
    | nil =>
      have hcolumns : (columnsOf table).map (ColumnRef.mk table) =
          [Item.everyColumn table].flatMap (Item.columns columnsOf) :=
        (List.flatMap_singleton ..).symm
      have hinj : Function.Injective (ColumnRef.mk table) := fun _ _ heq =>
        (ColumnRef.mk.inj heq).2
      exact hcolumns ▸ htable.map hinj
    | cons column columns => exact h.sublist (columns_columnItem columnsOf score)
  unfold projection
  cases score with
  | none => exact hshown
  | some score =>
    have hscore : (scoreItem table score).columns columnsOf = [] := rfl
    by_cases hlabel : columns.contains score.label = true
    · simpa only [hlabel, if_true] using hshown
    · simpa only [hlabel, Bool.false_eq_true, if_false, List.flatMap_append,
        List.flatMap_singleton, hscore, List.append_nil] using hshown

/-- Of names that differ, the name of the score is one at most. -/
theorem filter_isScore_projection (h : columns.Nodup) (score : Option Score) :
    (projection table columns score).filter Item.isScore =
      (score.map (scoreItem table)).toList := by
  cases score with
  | none =>
    cases columns with
    | nil => rfl
    | cons column columns =>
      have hcolumn : ∀ column, (columnItem table none column).isScore = false := fun _ => rfl
      simp [projection, List.filter_map, Function.comp_def, hcolumn]
  | some score =>
    have hcolumn : ∀ column, (columnItem table (some score) column).isScore =
        (column == score.label) := by
      intro column
      by_cases hlabel : score.label = column
      · rw [columnItem, if_pos hlabel, beq_iff_eq.mpr hlabel.symm]
        rfl
      · rw [columnItem, if_neg hlabel, beq_false_of_ne (Ne.symm hlabel)]
        rfl
    have hlabelled : columnItem table (some score) score.label = scoreItem table score :=
      if_pos rfl
    have hcolumns : (columns.map (columnItem table (some score))).filter Item.isScore =
        List.replicate (columns.count score.label) (scoreItem table score) := by
      rw [List.filter_map]
      simp only [Function.comp_def, hcolumn, List.filter_beq, List.map_replicate, hlabelled]
    have hshown : (if columns.isEmpty then [.everyColumn table]
        else columns.map (columnItem table (some score))).filter Item.isScore =
        List.replicate (columns.count score.label) (scoreItem table score) := by
      cases columns with
      | nil => rfl
      | cons column columns => exact hcolumns
    -- the score stands where its name is selected, or else once at the end
    unfold projection
    by_cases hlabel : columns.contains score.label = true
    · have hcount : columns.count score.label = 1 :=
        List.count_eq_one_of_mem h (by simpa using hlabel)
      simp only [hlabel, if_true, hshown, hcount]
      rfl
    · have hcount : columns.count score.label = 0 :=
        List.count_eq_zero.mpr (by simpa using hlabel)
      simp only [hlabel, Bool.false_eq_true, if_false, List.filter_append, hshown, hcount]
      rfl

end Sql

/-! ### Plans whose columns were added -/

namespace Plan

def withColumns (plan : Plan) (calls : List (List String)) : Plan := calls.foldl addColumns plan

theorem withColumns_eq (plan : Plan) (calls : List (List String)) :
    plan.withColumns calls =
      { plan with select := extendSelect plan.table plan.select calls.flatten } := by
  induction calls generalizing plan with
  | nil => rfl
  | cons columns calls ih =>
    change (plan.addColumns columns).withColumns calls = _
    rw [ih, addColumns_eq, List.flatten_cons, extendSelect_append]

/-- What a statement shows of a plan: no column twice, and the score once if there is one. -/
structure ShownOnce (plan : Plan) (statement : Statement) : Prop where
  columns : ∀ columnsOf : String → List String, (columnsOf plan.table).Nodup →
    (statement.items.flatMap (Item.columns columnsOf)).Nodup
  score : statement.items.filter Item.isScore = (plan.score.map (scoreItem plan.table)).toList

theorem shownOnce_of_nodup {plan : Plan} (h : (plan.select.map plan.qualify).Nodup) :
    plan.ShownOnce (.ofPlan plan) ∧ plan.ShownOnce (.countOf plan) := by
  have hcolumns : (plan.select.map (ColumnRef.resolve plan.table)).Nodup :=
    nodup_resolve_of_nodup_qualify h
  have hshown : ∀ columnsOf : String → List String, (columnsOf plan.table).Nodup →
      ((projection plan.table plan.select plan.score).flatMap (Item.columns columnsOf)).Nodup :=
    fun _ htable => nodup_columns_projection htable hcolumns plan.score
  have hscore : (projection plan.table plan.select plan.score).filter Item.isScore =
      (plan.score.map (scoreItem plan.table)).toList :=
    filter_isScore_projection h.of_map plan.score
  exact ⟨⟨hshown, hscore⟩, ⟨hshown, hscore⟩⟩

/-- However columns are added to an empty projection, under whatever names, it has no two entries
for one column, and for every name that was added it has an entry of the same qualified name. What
is added later stands behind what was there, which is left as it was. So the statement of the rows
and the one that counts them show no column twice, and the score once if there is one. -/
theorem columns_projected_once {start : Plan} (hstart : start.select = [])
    (calls more : List (List String)) :
    ((start.withColumns calls).select.map (ColumnRef.resolve start.table)).Nodup ∧
    (∀ columns ∈ calls, ∀ column ∈ columns, ∃ entry ∈ (start.withColumns calls).select,
      start.qualify entry = start.qualify column) ∧
    (start.withColumns calls).select.Sublist calls.flatten ∧
    (start.withColumns calls).select <+: (start.withColumns (calls ++ more)).select ∧
    ((start.withColumns calls).select ≠ [] → (start.withColumns (calls ++ more)).select ≠ []) ∧
    (start.withColumns calls).ShownOnce (.ofPlan (start.withColumns calls)) ∧
    (start.withColumns calls).ShownOnce (.countOf (start.withColumns calls)) := by
  have hqualified : ((start.withColumns calls).select.map start.qualify).Nodup := by
    have hempty : (([] : List String).map (RestQuery.qualify start.table)).Nodup := List.nodup_nil
    rw [withColumns_eq, hstart]
    exact nodup_extendSelect hempty calls.flatten
  have hprefix : (start.withColumns calls).select <+:
      (start.withColumns (calls ++ more)).select := by
    rw [withColumns_eq, withColumns_eq, List.flatten_append, extendSelect_append]
    exact prefix_extendSelect ..
  have hqualify : (start.withColumns calls).qualify = start.qualify := by rw [withColumns_eq]; rfl
  refine ⟨nodup_resolve_of_nodup_qualify hqualified, fun columns hcall column hcolumn => ?_, ?_,
    hprefix, fun hne hempty => hne (List.prefix_nil.mp (hempty ▸ hprefix)), ?_⟩
  · rw [withColumns_eq]
    exact exists_mem_extendSelect _ _ (List.mem_flatten_of_mem hcall hcolumn)
  · rw [withColumns_eq, hstart]
    exact sublist_extendSelect start.table [] calls.flatten
  · exact shownOnce_of_nodup (hqualify ▸ hqualified)

/-- Posts with a score, the columns of which are named in several ways. -/
def scoredPosts : Plan :=
  { ofTable "posts" with score := some ⟨"search_score", ["title"], "rust"⟩ }

theorem columns_projected_once_of_scoredPosts :
    scoredPosts.select = [] ∧
      (scoredPosts.withColumns [["id", "search_score"], ["posts.id", "users.id", "id"]]).select =
        ["id", "search_score", "users.id"] ∧
      (∃ entry ∈ ["id", "search_score", "users.id"],
        scoredPosts.qualify entry = scoredPosts.qualify "posts.id") ∧
      ([Item.column ⟨"posts", "id"⟩, scoreItem "posts" ⟨"search_score", ["title"], "rust"⟩,
        .column ⟨"users", "id"⟩].flatMap (Item.columns fun _ => ["id", "title"])).Nodup := by
  have hselect : (scoredPosts.withColumns
      [["id", "search_score"], ["posts.id", "users.id", "id"]]).select =
      ["id", "search_score", "users.id"] := by decide
  have hempty : scoredPosts.select = [] := rfl
  obtain ⟨-, hentries, -, -, -, hshown, -⟩ := columns_projected_once hempty
    [["id", "search_score"], ["posts.id", "users.id", "id"]] []
  refine ⟨rfl, hselect, ?_, ?_⟩
  · rw [← hselect]
    exact hentries ["posts.id", "users.id", "id"] (by simp) "posts.id" (by simp)
  · exact hshown.columns (fun _ => ["id", "title"]) (by decide)

end Plan

end RestQuery
