import Mathlib
import RestQuery.Proofs.Expansion.Items

/-!
# Exact expansions

An expansion has an entry for the root and for every prefix of a listed path, and each entry holds
what its place needs: the columns listed for its whole path, the parent keys of the relations that
are followed from there, and exactly where columns are listed the keys of the relation that leads
there. All of this depends on which items are listed and not on how, so a list may be reordered, and
may repeat its items, without any effect.
-/

namespace RestQuery

open Text Schema

namespace ExpandClause

/-- An expansion holds what a list of items needs, and nothing else. -/
structure Exact (ctx : Context) (listed : List ExpandItem) (e : Expansion) : Prop where
  /-- Each segment of a listed path names a relation of the entity that the path has reached. -/
  declared : ∀ {above name}, Through listed (above ++ [name]) →
    ∃ parent relation, RelationAt ctx.schema.expandsTo ctx.entity above name parent relation
  /-- Columns are listed only for paths that reach an entity. -/
  targeted : ∀ item ∈ listed, item.columns ≠ [] →
    ∃ target, entityAt ctx.schema.expandsTo ctx.entity (pieces '.' item.path) = some target
  mem_keys : ∀ path, path ∈ e.paths.keys ↔ path = rootPath ∧ listed ≠ [] ∨
    ∃ segments, segments ≠ [] ∧ Through listed segments ∧ pathTo segments = some path
  mem_requested : ∀ path column, column ∈ (e.entry path).requested ↔
    ∃ item ∈ listed, item.path = path ∧ ∃ target,
      entityAt ctx.schema.expandsTo ctx.entity (pieces '.' path) = some target ∧
      column ∈ item.columns.map target.qualified
  mem_required : ∀ path key, key ∈ (e.entry path).required ↔
    (∃ above name parent relation, Through listed (above ++ [name]) ∧ levelPath above = path ∧
      RelationAt ctx.schema.expandsTo ctx.entity above name parent relation ∧
      key ∈ (relation.parentKeys parent.primaryKey).map parent.qualified) ∨
    (e.entry path).requested ≠ [] ∧ ∃ above name parent relation target,
      pieces '.' path = above ++ [name] ∧
      RelationAt ctx.schema.expandsTo ctx.entity above name parent relation ∧
      ctx.schema.expandsTo parent relation = some target ∧
      key ∈ (relation.relatedKeys (some target.primaryKey)).map target.qualified
  nodup : ∀ path, (e.entry path).required.Nodup ∧ (e.entry path).requested.Nodup

structure Alike (e e' : Expansion) : Prop where
  keys_eq : e.paths.keys = e'.paths.keys
  mem_requested : ∀ path column,
    column ∈ (e.entry path).requested ↔ column ∈ (e'.entry path).requested
  mem_required : ∀ path key, key ∈ (e.entry path).required ↔ key ∈ (e'.entry path).required

section Accepted

variable {ctx : Context} {listed : List ExpandItem}

/-- An item whose columns are named reaches an entity, since relations without a single target take
no columns. -/
theorem Accepted.exists_target (h : Accepted ctx listed) (hb : ctx.schema.Built)
    (hroot : ctx.entity.Built) {item : ExpandItem} (hitem : item ∈ listed)
    (hcolumns : item.columns ≠ []) : ∃ above name parent relation target,
      pieces '.' item.path = above ++ [name] ∧
      RelationAt ctx.schema.expandsTo ctx.entity above name parent relation ∧
      relation.related.bind ctx.schema.entity? = some target := by
  obtain ⟨above, name, hpieces⟩ :=
    (List.eq_nil_or_concat' (pieces '.' item.path)).resolve_left (pieces_ne_nil item.path)
  have hthrough : Through listed (above ++ [name]) := ⟨item, hitem, [], by simp [hpieces]⟩
  obtain ⟨parent, relation, hat, htarget⟩ := h.exists_relationAt hthrough
  have hrejects := h.rejectsColumns_eq_false hitem hcolumns hpieces hat
  have hbuilt : relation.Built := hb.built_of_entityAt hroot hat.level hat.declared
  have hrelated : relation.related ≠ none := by
    rw [ne_eq, hbuilt.related_eq_none_iff]
    intro hkind
    simp [hkind, RelationKind.rejectsColumns] at hrejects
  obtain ⟨target, hreached⟩ := Option.ne_none_iff_exists'.mp (htarget hrelated)
  exact ⟨above, name, parent, relation, target, hpieces, hat, hreached⟩

/-- The entity that a path reaches is the target of its last relation. -/
theorem entityAt_pieces_iff (hb : ctx.schema.Built) (hroot : ctx.entity.Built) {path : String}
    {target : Entity} :
    entityAt ctx.schema.expandsTo ctx.entity (pieces '.' path) = some target ↔
      ∃ above name parent relation, pieces '.' path = above ++ [name] ∧
        RelationAt ctx.schema.expandsTo ctx.entity above name parent relation ∧
        relation.related.bind ctx.schema.entity? = some target := by
  obtain ⟨above, name, hpieces⟩ :=
    (List.eq_nil_or_concat' (pieces '.' path)).resolve_left (pieces_ne_nil path)
  rw [hpieces, entityAt_concat]
  constructor
  · rintro ⟨parent, relation, hat, hnext⟩
    rw [expandsTo_eq_bind (hb.built_of_entityAt hroot hat.level hat.declared)] at hnext
    exact ⟨above, name, parent, relation, rfl, hat, hnext⟩
  · rintro ⟨above', name', parent, relation, hcut, hat, htarget⟩
    obtain ⟨rfl, hname⟩ := List.append_inj' hcut rfl
    obtain rfl := List.singleton_injective hname
    refine ⟨parent, relation, hat, ?_⟩
    rw [expandsTo_eq_bind (hb.built_of_entityAt hroot hat.level hat.declared), htarget]

theorem Accepted.mem_requested_iff_entityAt (h : Accepted ctx listed) (hb : ctx.schema.Built)
    (hroot : ctx.entity.Built) {path column : String} :
    column ∈ ((Expansion.empty.markAll (marksOf ctx listed)).entry path).requested ↔
      ∃ item ∈ listed, item.path = path ∧ ∃ target,
        entityAt ctx.schema.expandsTo ctx.entity (pieces '.' path) = some target ∧
        column ∈ item.columns.map target.qualified := by
  simp only [h.mem_requested_iff, entityAt_pieces_iff hb hroot]
  constructor
  · rintro ⟨item, hitem, hpath, above, name, parent, relation, target, hpieces, hat, htarget, hc⟩
    exact ⟨item, hitem, hpath, target, ⟨above, name, parent, relation, hpieces, hat, htarget⟩, hc⟩
  · rintro ⟨item, hitem, hpath, target, ⟨above, name, parent, relation, hpieces, hat, htarget⟩, hc⟩
    exact ⟨item, hitem, hpath, above, name, parent, relation, target, hpieces, hat, htarget, hc⟩

theorem Accepted.requested_ne_nil_iff (h : Accepted ctx listed) (hb : ctx.schema.Built)
    (hroot : ctx.entity.Built) {path : String} :
    ((Expansion.empty.markAll (marksOf ctx listed)).entry path).requested ≠ [] ↔
      ∃ item ∈ listed, item.path = path ∧ item.columns ≠ [] := by
  constructor
  · intro hne
    obtain ⟨column, hcolumn⟩ := List.exists_mem_of_ne_nil _ hne
    obtain ⟨item, hitem, hpath, target, -, hcolumn⟩ :=
      (h.mem_requested_iff_entityAt hb hroot).mp hcolumn
    obtain ⟨own, hown, -⟩ := List.mem_map.mp hcolumn
    exact ⟨item, hitem, hpath, List.ne_nil_of_mem hown⟩
  · rintro ⟨item, hitem, rfl, hcolumns⟩
    obtain ⟨own, hown⟩ := List.exists_mem_of_ne_nil _ hcolumns
    obtain ⟨above, name, parent, relation, target, hreached⟩ :=
      h.exists_target hb hroot hitem hcolumns
    refine List.ne_nil_of_mem ((h.mem_requested_iff_entityAt hb hroot).mpr ⟨item, hitem, rfl,
      target, ?_, List.mem_map_of_mem hown⟩)
    exact (entityAt_pieces_iff hb hroot).mpr ⟨above, name, parent, relation, hreached⟩

theorem Accepted.exact (h : Accepted ctx listed) (hb : ctx.schema.Built)
    (hroot : ctx.entity.Built) :
    Exact ctx listed (Expansion.empty.markAll (marksOf ctx listed)) where
  declared hthrough := by
    obtain ⟨parent, relation, hat, -⟩ := h.exists_relationAt hthrough
    exact ⟨parent, relation, hat⟩
  targeted item hitem hcolumns := by
    obtain ⟨above, name, parent, relation, target, hreached⟩ :=
      h.exists_target hb hroot hitem hcolumns
    exact ⟨target,
      (entityAt_pieces_iff hb hroot).mpr ⟨above, name, parent, relation, hreached⟩⟩
  mem_keys _ := h.mem_keys_iff
  mem_requested _ _ := h.mem_requested_iff_entityAt hb hroot
  mem_required path key := by
    rw [h.mem_required_iff, h.requested_ne_nil_iff hb hroot]
    refine or_congr Iff.rfl ?_
    constructor
    · rintro ⟨item, hitem, hpath, hcolumns, above, name, parent, relation, target, hpieces, hat,
        htarget, hkey⟩
      rw [← expandsTo_eq_bind (hb.built_of_entityAt hroot hat.level hat.declared) parent]
        at htarget
      exact ⟨⟨item, hitem, hpath, hcolumns⟩, above, name, parent, relation, target, hpieces, hat,
        htarget, hkey⟩
    · rintro ⟨⟨item, hitem, hpath, hcolumns⟩, above, name, parent, relation, target, hpieces, hat,
        htarget, hkey⟩
      rw [expandsTo_eq_bind (hb.built_of_entityAt hroot hat.level hat.declared)] at htarget
      exact ⟨item, hitem, hpath, hcolumns, above, name, parent, relation, target, hpieces, hat,
        htarget, hkey⟩
  nodup path := Expansion.nodup_markAll _ path

theorem mem_marksOf_congr {listed' : List ExpandItem}
    (hsame : ∀ item, item ∈ listed' ↔ item ∈ listed) (m : Mark) :
    m ∈ marksOf ctx listed' ↔ m ∈ marksOf ctx listed := by
  simp only [marksOf, List.mem_flatMap, hsame]

theorem alike_of_mem_marks_iff {marks marks' : List Mark} (h : ∀ m, m ∈ marks' ↔ m ∈ marks) :
    Alike (.markAll .empty marks') (.markAll .empty marks) where
  keys_eq := (Expansion.ordered_markAll marks').eq_of_mem_iff (Expansion.ordered_markAll marks)
    fun path => by simp only [Expansion.mem_keys_markAll, h]
  mem_requested _ _ := by simp only [Expansion.mem_requested_markAll, h]
  mem_required _ _ := by simp only [Expansion.mem_required_markAll, h]

end Accepted

/-- The expansion of an accepted parameter is exact. Every list of the same items, in whatever order
and however often each, is accepted with the same columns at the same paths, and so is every
parameter that lists them. -/
theorem expansion_exact {ctx : Context} {ps : Parameters} {clause : ExpandClause}
    (hb : ctx.schema.Built) (hroot : ctx.entity.Built)
    (h : read ctx ps .empty = .accept clause) :
    Exact ctx (items ctx ps) clause.expansion ∧
    ∀ listed, (∀ item, item ∈ listed ↔ item ∈ items ctx ps) →
      ∃ e, gather (take ctx) .empty listed = .accept e ∧ Alike e clause.expansion ∧
        ∀ ps', items ctx ps' = listed → read ctx ps' .empty = .accept ⟨e⟩ := by
  obtain ⟨haccepted, hmarks⟩ := gather_take_eq_accept_iff.mp (read_eq_accept_iff.mp h)
  rw [hmarks]
  refine ⟨haccepted.exact hb hroot, fun listed hsame => ?_⟩
  have haccepted' : Accepted ctx listed := fun item hitem => haccepted item ((hsame item).mp hitem)
  have hgather := gather_take_eq_accept_iff.mpr ⟨haccepted', rfl⟩
  refine ⟨_, hgather, alike_of_mem_marks_iff (mem_marksOf_congr hsame), fun ps' hps' => ?_⟩
  subst hps'
  exact read_eq_accept_iff.mpr hgather

/-! ### Authors with their books -/

def writerEntity : Entity :=
  (Entity.ofTable "authors" "authors").addRelation "books" (.hasMany "books" "author_id" "id")

def bookEntity : Entity :=
  (Entity.ofTable "books" "books").addRelation "author" (.belongsTo "authors" "author_id" "id")

def bookSchema : Schema := (Schema.empty.add writerEntity).add bookEntity

theorem built_writerEntity : writerEntity.Built :=
  (Entity.built_ofTable _ _).addRelation _ (.hasMany _ _ _)

theorem built_bookSchema : bookSchema.Built :=
  (built_empty.add built_writerEntity).add
    ((Entity.built_ofTable _ _).addRelation _ (.belongsTo _ _ _))

def writerContext : Context :=
  ⟨Settings.default, .permissive, bookSchema, writerEntity, .default⟩

def bookItems : List ExpandItem := [⟨"books.author", ["name"]⟩, ⟨"books", []⟩]

def bookExpansion : Expansion :=
  ⟨[(".", ⟨["authors.id"], []⟩), ("books", ⟨["books.author_id"], []⟩),
    ("books.author", ⟨["authors.id"], ["authors.name"]⟩)]⟩

theorem expansion_exact_of_books :
    read writerContext (.ofPairs [("expand", "books.author[name],books")]) .empty =
      .accept ⟨bookExpansion⟩ ∧
    Exact writerContext bookItems bookExpansion ∧
    ∃ e, gather (take writerContext) .empty (bookItems.reverse ++ bookItems) = .accept e ∧
      Alike e bookExpansion := by
  have hitems : items writerContext (.ofPairs [("expand", "books.author[name],books")]) =
      bookItems := by
    decide +kernel
  have haccept : read writerContext (.ofPairs [("expand", "books.author[name],books")]) .empty =
      .accept ⟨bookExpansion⟩ := by
    rw [read_eq_accept_iff, hitems]
    cbv
  obtain ⟨hexact, hsame⟩ := expansion_exact built_bookSchema built_writerEntity haccept
  rw [hitems] at hexact hsame
  obtain ⟨e, hgather, halike, -⟩ := hsame (bookItems.reverse ++ bookItems) (by simp)
  exact ⟨haccept, hexact, e, hgather, halike⟩

end ExpandClause

end RestQuery
