import RestQuery.Request

/-!
# What the clauses read of the parameters

All that a request asks for, but its filters, is read by reserved names. So from parameters that
agree on the names that a clause reads the same is read, wherever these names stand and whatever
else is asked for.
-/

namespace RestQuery

@[simp] theorem Settings.param_inj {settings : Settings} {name name' : String} :
    settings.param name = settings.param name' ↔ name = name' := String.append_right_inj _

@[simp] theorem Context.param?_singleton (ctx : Context) (ps : Parameters) (name : String) :
    ctx.param? ps [name] = ps.get? (ctx.settings.param name) := by
  unfold Context.param?
  cases hget : ps.get? (ctx.settings.param name) <;> simp [hget]

theorem Context.param?_pair (ctx : Context) (ps : Parameters) (name other : String) :
    ctx.param? ps [name, other] =
      (ps.get? (ctx.settings.param name)).or (ps.get? (ctx.settings.param other)) := by
  unfold Context.param?
  cases hget : ps.get? (ctx.settings.param name) with
  | none => cases hother : ps.get? (ctx.settings.param other) <;> simp [hget, hother]
  | some value => simp [hget]

/-- Parameters have the same values under some reserved names. -/
def Context.AgreeOn (ctx : Context) (names : List String) (ps ps' : Parameters) : Prop :=
  ∀ name ∈ names, ps.get? (ctx.settings.param name) = ps'.get? (ctx.settings.param name)

namespace Context.AgreeOn

variable {ctx : Context} {names : List String} {ps ps' : Parameters}
  (h : ctx.AgreeOn names ps ps')

include h

theorem param?_eq {read : List String} (hread : ∀ name ∈ read, name ∈ names) :
    ctx.param? ps read = ctx.param? ps' read := by
  induction read with
  | nil => rfl
  | cons name read ih =>
    have hname := h name (hread name List.mem_cons_self)
    have hrest := ih fun name hmem => hread name (List.mem_cons_of_mem _ hmem)
    unfold Context.param? at hrest ⊢
    rw [List.findSome?_cons, List.findSome?_cons, hname, hrest]

theorem select_eq (hnames : ∀ name ∈ ["select", "fields"], name ∈ names) (clause : SelectClause) :
    SelectClause.read ctx ps clause = SelectClause.read ctx ps' clause := by
  rw [SelectClause.read, SelectClause.read, h.param?_eq hnames]

theorem scoreSortable_eq (hnames : ∀ name ∈ ["search", "q"], name ∈ names) :
    SortClause.scoreSortable ctx ps = SortClause.scoreSortable ctx ps' := by
  rw [SortClause.scoreSortable, SortClause.scoreSortable, h.param?_eq hnames]

theorem sort_eq (hnames : ∀ name ∈ ["sort", "search", "q"], name ∈ names)
    (clause : SortClause) : SortClause.read ctx ps clause = SortClause.read ctx ps' clause := by
  obtain ⟨hsort, hsearch⟩ := List.forall_mem_cons.mp hnames
  rw [SortClause.read, SortClause.read, h.scoreSortable_eq hsearch,
    h.param?_eq (List.forall_mem_singleton.mpr hsort)]

theorem expand_eq (hnames : ∀ name ∈ ["expand", "with"], name ∈ names) (clause : ExpandClause) :
    ExpandClause.read ctx ps clause = ExpandClause.read ctx ps' clause := by
  rw [ExpandClause.read, ExpandClause.read, h.param?_eq hnames]

theorem search_eq (hnames : ∀ name ∈ ["search", "q"], name ∈ names) (clause : SearchClause) :
    SearchClause.read ctx ps clause = SearchClause.read ctx ps' clause := by
  rw [SearchClause.read, SearchClause.read, h.param?_eq hnames]

theorem sizeOf_eq (hnames : ∀ name ∈ ["limit", "pageSize"], name ∈ names) :
    PageClause.sizeOf ctx ps = PageClause.sizeOf ctx ps' := by
  rw [PageClause.sizeOf, PageClause.sizeOf, h.param?_eq hnames]

theorem page_eq (hnames : ∀ name ∈ ["offset", "page", "limit", "pageSize"], name ∈ names)
    (clause : PageClause) : PageClause.read ctx ps clause = PageClause.read ctx ps' clause := by
  obtain ⟨hoffset, hrest⟩ := List.forall_mem_cons.mp hnames
  obtain ⟨hpage, hsize⟩ := List.forall_mem_cons.mp hrest
  rw [PageClause.read, PageClause.read, h.sizeOf_eq hsize,
    h.param?_eq (List.forall_mem_singleton.mpr hoffset),
    h.param?_eq (List.forall_mem_singleton.mpr hpage)]

theorem options_eq (hnames : ∀ name ∈ ["config"], name ∈ names) :
    Handler.optionsOf ctx ps = Handler.optionsOf ctx ps' := by
  rw [Handler.optionsOf, Handler.optionsOf, h.param?_eq hnames]

end Context.AgreeOn

end RestQuery
