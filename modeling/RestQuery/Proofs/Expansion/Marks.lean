import Mathlib.Tactic.SplitIfs
import RestQuery.Proofs.Dict
import RestQuery.Proofs.Gather
import RestQuery.Proofs.Level

/-!
# Marks of an expansion

A walk along a path leaves marks: at the level above each relation the parent keys, and at the end
of the path the related keys and the requested columns. Marks commute up to order, so an expansion
holds at each path exactly the columns that some mark records there. The marks of a path do not
depend on what was expanded before, and neither does its acceptance.
-/

namespace RestQuery

open Text ExpandClause Schema

/-- Columns that are recorded at one path. -/
structure Mark where
  path : String
  required : List String
  requested : List String

theorem mem_extendUnique {columns more : List String} {c : String} :
    c ∈ extendUnique columns more ↔ c ∈ columns ∨ c ∈ more := by
  induction more generalizing columns with
  | nil => simp [extendUnique]
  | cons m more ih =>
    rw [extendUnique, List.foldl_cons]
    change c ∈ extendUnique _ more ↔ _
    rw [ih]
    by_cases hm : columns.contains m = true
    · have hmem : m ∈ columns := by simpa using hm
      rw [if_pos hm, List.mem_cons]
      constructor
      · rintro (h | h)
        · exact Or.inl h
        · exact Or.inr (Or.inr h)
      · rintro (h | rfl | h)
        · exact Or.inl h
        · exact Or.inl hmem
        · exact Or.inr h
    · rw [if_neg hm, List.mem_append, List.mem_singleton, List.mem_cons, or_assoc]

theorem nodup_extendUnique {columns more : List String} (h : columns.Nodup) :
    (extendUnique columns more).Nodup := by
  induction more generalizing columns with
  | nil => exact h
  | cons m more ih =>
    rw [extendUnique, List.foldl_cons]
    refine ih ?_
    split
    · exact h
    · next hm =>
      refine List.nodup_append.mpr ⟨h, by simp, ?_⟩
      rintro c hc _ hcm rfl
      obtain rfl := List.mem_singleton.mp hcm
      exact hm (by simpa using hc)

@[simp] theorem PathColumns.mem_all {cols : PathColumns} {c : String} :
    c ∈ cols.all ↔ c ∈ cols.required ∨ c ∈ cols.requested := mem_extendUnique

namespace Expansion

def entry (e : Expansion) (path : String) : PathColumns := (e.get? path).getD .empty

def mark (e : Expansion) (m : Mark) : Expansion :=
  e.update m.path fun cols => (cols.require m.required).request m.requested

def markAll (e : Expansion) (marks : List Mark) : Expansion := marks.foldl mark e

@[simp] theorem entry_mark_self (e : Expansion) (m : Mark) :
    (e.mark m).entry m.path = ((e.entry m.path).require m.required).request m.requested := by
  simp [entry, get?, mark, update]

@[simp] theorem entry_mark_of_ne (e : Expansion) {m : Mark} {path : String} (h : path ≠ m.path) :
    (e.mark m).entry path = e.entry path := by
  simp [entry, get?, mark, update, h]

theorem mem_required_mark {e : Expansion} {m : Mark} {path c : String} :
    c ∈ ((e.mark m).entry path).required ↔
      c ∈ (e.entry path).required ∨ m.path = path ∧ c ∈ m.required := by
  by_cases h : path = m.path
  · subst h
    simp [PathColumns.require, PathColumns.request, mem_extendUnique]
  · have h' : ¬ m.path = path := fun e => h e.symm
    simp [h, h']

theorem mem_requested_mark {e : Expansion} {m : Mark} {path c : String} :
    c ∈ ((e.mark m).entry path).requested ↔
      c ∈ (e.entry path).requested ∨ m.path = path ∧ c ∈ m.requested := by
  by_cases h : path = m.path
  · subst h
    simp [PathColumns.require, PathColumns.request, mem_extendUnique]
  · have h' : ¬ m.path = path := fun e => h e.symm
    simp [h, h']

theorem mem_required_markAll {marks : List Mark} {e : Expansion} {path c : String} :
    c ∈ ((e.markAll marks).entry path).required ↔
      c ∈ (e.entry path).required ∨ ∃ m ∈ marks, m.path = path ∧ c ∈ m.required := by
  induction marks generalizing e with
  | nil => simp [markAll]
  | cons m marks ih =>
    change c ∈ (((e.mark m).markAll marks).entry path).required ↔ _
    rw [ih, mem_required_mark, or_assoc]
    simp only [List.mem_cons, exists_eq_or_imp]

theorem mem_requested_markAll {marks : List Mark} {e : Expansion} {path c : String} :
    c ∈ ((e.markAll marks).entry path).requested ↔
      c ∈ (e.entry path).requested ∨ ∃ m ∈ marks, m.path = path ∧ c ∈ m.requested := by
  induction marks generalizing e with
  | nil => simp [markAll]
  | cons m marks ih =>
    change c ∈ (((e.mark m).markAll marks).entry path).requested ↔ _
    rw [ih, mem_requested_mark, or_assoc]
    simp only [List.mem_cons, exists_eq_or_imp]

theorem mem_keys_markAll {marks : List Mark} {e : Expansion} {path : String} :
    path ∈ (e.markAll marks).paths.keys ↔ path ∈ e.paths.keys ∨ ∃ m ∈ marks, m.path = path := by
  induction marks generalizing e with
  | nil => simp [markAll]
  | cons m marks ih =>
    change path ∈ ((e.mark m).markAll marks).paths.keys ↔ _
    rw [ih, mark, update, Dict.mem_keys_update]
    simp only [List.mem_cons, exists_eq_or_imp]
    rw [eq_comm, or_assoc]
    exact or_left_comm

/-- What each mark preserves holds of what all of them leave. -/
theorem markAll_invariant {P : Expansion → Prop} (hmark : ∀ e m, P e → P (e.mark m)) {e : Expansion}
    (he : P e) (marks : List Mark) : P (e.markAll marks) := by
  induction marks generalizing e with
  | nil => exact he
  | cons m marks ih => exact ih (hmark e m he)

theorem ordered_markAll (marks : List Mark) : (empty.markAll marks).paths.Ordered :=
  markAll_invariant (P := fun e => e.paths.Ordered) (fun _ _ he => Dict.ordered_insert he _ _)
    Dict.ordered_nil marks

/-- No column is recorded twice at a path. -/
theorem nodup_markAll (marks : List Mark) (path : String) :
    ((empty.markAll marks).entry path).required.Nodup ∧
      ((empty.markAll marks).entry path).requested.Nodup := by
  have hempty : (empty.entry path).required.Nodup ∧ (empty.entry path).requested.Nodup :=
    ⟨List.nodup_nil, List.nodup_nil⟩
  refine markAll_invariant
    (P := fun e => (e.entry path).required.Nodup ∧ (e.entry path).requested.Nodup) ?_ hempty marks
  intro e m he
  by_cases h : path = m.path
  · subst h
    rw [entry_mark_self]
    exact ⟨nodup_extendUnique he.1, nodup_extendUnique he.2⟩
  · rwa [entry_mark_of_ne e h]

theorem markAll_append (e : Expansion) (marks more : List Mark) :
    e.markAll (marks ++ more) = (e.markAll marks).markAll more := List.foldl_append

end Expansion

/-! ### The marks of one path -/

/-- What one relation on the way of a path leaves: the keys of its parent rows, and what `columns`,
if there are any, ask of the related rows. -/
def hopMarks (parent : Entity) (relation : Relation) (target : Option Entity) (above : List String)
    (segment : String) (columns : List String) : List Mark :=
  let parentKeys := (relation.parentKeys parent.primaryKey).map parent.qualified
  let path := pathBelow (pathTo above) segment
  [⟨levelPath above, parentKeys, []⟩,
    match columns, target with
    | c :: cs, some target =>
      ⟨path, (relation.relatedKeys (some target.primaryKey)).map target.qualified,
        (c :: cs).map target.qualified⟩
    | _, _ => ⟨path, [], []⟩]

theorem record_eq_markAll (parent : Entity) (relation : Relation) (target : Option Entity)
    (above : List String) (segment : String) (columns : List String) (e : Expansion) :
    record parent relation target (pathTo above) segment columns e =
      e.markAll (hopMarks parent relation target above segment columns) := by
  cases columns with
  | nil => rfl
  | cons c cs => cases target <;> rfl

section HopMarks

variable {parent : Entity} {relation : Relation} {target : Option Entity} {above : List String}
  {segment : String} {columns : List String} {path : String}

theorem exists_hopMark_at :
    (∃ m ∈ hopMarks parent relation target above segment columns, m.path = path) ↔
      levelPath above = path ∨ pathTo (above ++ [segment]) = some path := by
  rw [pathTo_concat, Option.some.injEq]
  cases columns with
  | nil => simp [hopMarks]
  | cons c cs => cases target <;> simp [hopMarks]

theorem exists_hopMark_required {key : String} :
    (∃ m ∈ hopMarks parent relation target above segment columns,
        m.path = path ∧ key ∈ m.required) ↔
      levelPath above = path ∧
          key ∈ (relation.parentKeys parent.primaryKey).map parent.qualified ∨
        columns ≠ [] ∧ ∃ entity, target = some entity ∧ pathTo (above ++ [segment]) = some path ∧
          key ∈ (relation.relatedKeys (some entity.primaryKey)).map entity.qualified := by
  rw [pathTo_concat, Option.some.injEq]
  cases columns with
  | nil => simp [hopMarks]
  | cons c cs => cases target <;> simp [hopMarks]

theorem exists_hopMark_requested {column : String} :
    (∃ m ∈ hopMarks parent relation target above segment columns,
        m.path = path ∧ column ∈ m.requested) ↔
      ∃ entity, target = some entity ∧ pathTo (above ++ [segment]) = some path ∧
        column ∈ columns.map entity.qualified := by
  rw [pathTo_concat, Option.some.injEq]
  cases columns with
  | nil => simp [hopMarks]
  | cons c cs => cases target <;> simp [hopMarks]

end HopMarks

/-- The marks of a path from one relation on, where `below` are those of the rest of the path. A
relation that takes no columns, or one that cannot be followed, refuses the path. -/
def marksOver (columns : List String) (parent : Entity) (relation : Relation)
    (target : Option Entity) (above : List String) (segment : String) (rest : List String)
    (below : Option (List Mark)) : Option (List Mark) :=
  let own := if rest = [] then columns else []
  if own ≠ [] ∧ relation.kind.rejectsColumns then none
  else if relation.kind = .morphTo ∧ rest ≠ [] then none
  else below.map (hopMarks parent relation target above segment own ++ ·)

/-- The marks of the segments that follow those of `above`, or `none` if the path is refused. -/
def marksAlong (schema : Schema) (columns : List String) :
    Entity → List String → List String → Option (List Mark)
  | _, _, [] => some []
  | parent, above, segment :: rest =>
    match parent.relation? segment with
    | none => none
    | some relation =>
      let target := relation.related.bind schema.entity?
      if relation.related.isSome ∧ target.isNone then none
      else
        marksOver columns parent relation target above segment rest
          (marksAlong schema columns (target.getD parent) (above ++ [segment]) rest)

/-- The walk over one relation and what follows, once the target of the relation is known. -/
def walkOver (ctx : Context) (item : ExpandItem) (parent : Entity) (relation : Relation)
    (target : Option Entity) (above : Option String) (e : Expansion) (segment : String)
    (rest : List String) : Gathered Expansion :=
  let own := if rest = [] then item.columns else []
  if own ≠ [] ∧ relation.kind.rejectsColumns then
    .refuse e (.expand item.path .columnsOfPolymorphic)
  else if relation.kind = .morphTo then
    walk ctx item parent (some (pathBelow above segment)) (some segment)
      (record parent relation target above segment own e) rest
  else
    walk ctx item (target.getD parent) (some (pathBelow above segment)) none
      (record parent relation target above segment own e) rest

section Walk

variable {ctx : Context} {item : ExpandItem} {parent : Entity} {relation : Relation}
  {segment : String} {rest : List String}

theorem walk_untargeted (h : parent.relation? segment = some relation)
    (hrelated : relation.related = none) (above : Option String) (e : Expansion) :
    walk ctx item parent above none e (segment :: rest) =
      walkOver ctx item parent relation none above e segment rest := by
  simp only [walk, h, hrelated, walkOver]

theorem walk_targeted (h : parent.relation? segment = some relation) {name : String}
    (hrelated : relation.related = some name) {target : Entity}
    (htarget : ctx.schema.entity? name = some target) (above : Option String) (e : Expansion) :
    walk ctx item parent above none e (segment :: rest) =
      walkOver ctx item parent relation (some target) above e segment rest := by
  simp only [walk, h, hrelated, htarget, walkOver]

theorem walk_past_polymorphic (above : Option String) (previous : String) (e e' : Expansion)
    (h : rest ≠ []) : walk ctx item parent above (some previous) e rest ≠ .accept e' := by
  cases rest with
  | nil => exact absurd rfl h
  | cons segment rest => simp [walk]

theorem walkOver_eq_accept_iff {target : Option Entity} {above : List String} {e e' : Expansion}
    (ih : ∀ e, walk ctx item (target.getD parent) (pathTo (above ++ [segment])) none e rest =
        .accept e' ↔
      ∃ marks, marksAlong ctx.schema item.columns (target.getD parent) (above ++ [segment]) rest =
        some marks ∧ e' = e.markAll marks) :
    walkOver ctx item parent relation target (pathTo above) e segment rest = .accept e' ↔
      ∃ marks, marksOver item.columns parent relation target above segment rest
        (marksAlong ctx.schema item.columns (target.getD parent) (above ++ [segment]) rest) =
          some marks ∧ e' = e.markAll marks := by
  unfold walkOver marksOver
  generalize (if rest = [] then item.columns else []) = own
  by_cases hreject : own ≠ [] ∧ relation.kind.rejectsColumns
  · simp [hreject]
  · dsimp only
    rw [if_neg hreject, if_neg hreject, record_eq_markAll, ← pathTo_concat]
    by_cases hk : relation.kind = .morphTo
    · rw [if_pos hk]
      by_cases hrest : rest = []
      · subst hrest
        simp [walk, marksAlong, eq_comm]
      · simp [hk, hrest, walk_past_polymorphic _ _ _ _ hrest]
    · rw [if_neg hk, if_neg (fun h => hk h.1), ih]
      simp [Expansion.markAll_append]

/-- A walk is accepted no matter what was expanded before, and adds the marks of its path. -/
theorem walk_eq_accept_iff {above segments : List String} {e e' : Expansion} :
    walk ctx item parent (pathTo above) none e segments = .accept e' ↔
      ∃ marks, marksAlong ctx.schema item.columns parent above segments = some marks ∧
        e' = e.markAll marks := by
  induction segments generalizing parent above e with
  | nil => simp [walk, marksAlong, Expansion.markAll, eq_comm]
  | cons segment rest ih =>
    rw [marksAlong]
    cases hrel : parent.relation? segment with
    | none => simp [walk, hrel]
    | some relation =>
      dsimp only
      cases hrelated : relation.related with
      | none =>
        rw [walk_untargeted hrel hrelated, if_neg (by simp)]
        exact walkOver_eq_accept_iff fun e => ih
      | some name =>
        cases htarget : ctx.schema.entity? name with
        | none => simp [walk, hrel, hrelated, htarget]
        | some target =>
          rw [walk_targeted hrel hrelated htarget, Option.bind_some, htarget, if_neg (by simp)]
          exact walkOver_eq_accept_iff fun e => ih

end Walk

/-! ### Marks by level -/

section Levels

variable {schema : Schema} {columns : List String}

theorem marksAlong_cons {parent : Entity} {above rest : List String} {segment : String}
    {marks : List Mark}
    (h : marksAlong schema columns parent above (segment :: rest) = some marks) :
    ∃ relation below, parent.relation? segment = some relation ∧
      (rest = [] → columns ≠ [] → relation.kind.rejectsColumns = false) ∧
      (relation.related ≠ none → relation.related.bind schema.entity? ≠ none) ∧
      (rest ≠ [] → schema.expandsTo parent relation =
        some ((relation.related.bind schema.entity?).getD parent)) ∧
      marksAlong schema columns ((relation.related.bind schema.entity?).getD parent)
        (above ++ [segment]) rest = some below ∧
      marks = hopMarks parent relation (relation.related.bind schema.entity?) above segment
        (if rest = [] then columns else []) ++ below := by
  rw [marksAlong] at h
  split at h
  · cases h
  · next relation hrel =>
    dsimp only [marksOver] at h
    generalize hown : (if rest = [] then columns else []) = own at h ⊢
    split_ifs at h with htarget hreject hk
    obtain ⟨below, hbelow, rfl⟩ := Option.map_eq_some_iff.mp h
    refine ⟨relation, below, hrel, ?_, ?_, ?_, hbelow, rfl⟩
    · intro hrest hcolumns
      rw [if_pos hrest] at hown
      simpa [← hown, hcolumns] using hreject
    · simpa [Option.isSome_iff_ne_none] using htarget
    · intro hrest
      have hkind : relation.kind ≠ .morphTo := fun hmorph => hk ⟨hmorph, hrest⟩
      rw [expandsTo, if_neg hkind]
      cases hrelated : relation.related with
      | none => rfl
      | some name =>
        cases hentity : schema.entity? name with
        | none => simp [hrelated, hentity] at htarget
        | some target => simp [hentity]

/-- Every segment of an accepted path names a relation, whose target is registered if it has one.
The last one takes the requested columns. -/
theorem exists_relationAt {root : Entity} {above segments : List String} {marks : List Mark}
    (h : marksAlong schema columns root above segments = some marks) {before after : List String}
    {segment : String} (hs : segments = before ++ segment :: after) :
    ∃ parent relation, RelationAt schema.expandsTo root before segment parent relation ∧
      (after = [] → columns ≠ [] → relation.kind.rejectsColumns = false) ∧
      (relation.related ≠ none → relation.related.bind schema.entity? ≠ none) := by
  induction before generalizing root above segments marks with
  | nil =>
    subst hs
    obtain ⟨relation, below, hrel, hcolumns, htarget, -⟩ := marksAlong_cons h
    exact ⟨root, relation, ⟨rfl, hrel⟩, hcolumns, htarget⟩
  | cons first before ih =>
    subst hs
    obtain ⟨relation, below, hrel, -, -, hnext, hbelow, -⟩ := marksAlong_cons h
    obtain ⟨parent, last, hat, hlast⟩ := ih hbelow rfl
    exact ⟨parent, last, (relationAt_cons_iff hrel (hnext (by simp))).mpr hat, hlast⟩

/-- The marks of an accepted path are those of the relations that its segments name. -/
theorem mem_marksAlong {root : Entity} {above segments : List String} {marks : List Mark}
    (h : marksAlong schema columns root above segments = some marks) {m : Mark} :
    m ∈ marks ↔ ∃ before segment after parent relation, segments = before ++ segment :: after ∧
      RelationAt schema.expandsTo root before segment parent relation ∧
      m ∈ hopMarks parent relation (relation.related.bind schema.entity?) (above ++ before) segment
        (if after = [] then columns else []) := by
  induction segments generalizing root above marks with
  | nil =>
    obtain rfl : marks = [] := by simpa [marksAlong, eq_comm] using h
    simp
  | cons first rest ih =>
    obtain ⟨relation, below, hrel, -, -, hnext, hbelow, rfl⟩ := marksAlong_cons h
    -- the marks below the first relation lie on the levels below its target
    have hbelow_iff : m ∈ below ↔ ∃ before segment after parent relation',
        rest = before ++ segment :: after ∧
        RelationAt schema.expandsTo root (first :: before) segment parent relation' ∧
        m ∈ hopMarks parent relation' (relation'.related.bind schema.entity?)
          (above ++ first :: before) segment (if after = [] then columns else []) := by
      rw [ih hbelow]
      by_cases hrest : rest = []
      · subst hrest
        simp
      · simp only [relationAt_cons_iff hrel (hnext hrest), List.append_assoc,
          List.singleton_append]
    rw [List.mem_append, hbelow_iff]
    constructor
    · rintro (hm | ⟨before, segment, after, parent, relation', rfl, hat, hm⟩)
      · exact ⟨[], first, rest, root, relation, rfl, ⟨rfl, hrel⟩, by simpa using hm⟩
      · exact ⟨first :: before, segment, after, parent, relation', rfl, hat, hm⟩
    · rintro ⟨before, segment, after, parent, relation', hs, hat, hm⟩
      cases before with
      | nil =>
        obtain ⟨rfl, rfl⟩ := List.cons.inj hs
        obtain ⟨rfl, rfl⟩ := hat.unique ⟨rfl, hrel⟩
        exact Or.inl (by simpa using hm)
      | cons first' before =>
        obtain ⟨rfl, hrest⟩ := List.cons.inj hs
        exact Or.inr ⟨before, segment, after, parent, relation', hrest, hat, hm⟩

end Levels

end RestQuery
