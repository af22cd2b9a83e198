import RestQuery.Proofs.Asked
import RestQuery.Proofs.Text.Words

/-!
# Names of bracketed filters

A parameter whose name begins like that of a filter is one exactly if the name goes on with an
optional suffix and ends with one or more segments in brackets. It stands for the path in which the
segments are joined with dots, so it does not matter where a path is written with dots and where
with brackets. All other names that begin like this are refused, and all that do not are left alone.
-/

namespace RestQuery

open Text

namespace FilterKey

structure IsSegment (s : String) : Prop where
  ne_empty : s ≠ ""
  no_open : '[' ∉ s.toList
  no_close : ']' ∉ s.toList

/-- Small letters and hyphens, a letter first. -/
def IsSuffix (s : String) : Prop :=
  ∃ first rest, s.toList = first :: rest ∧ ('a' ≤ first ∧ first ≤ 'z') ∧
    ∀ c ∈ rest, 'a' ≤ c ∧ c ≤ 'z' ∨ c = '-'

def inBrackets (segments : List String) : String :=
  String.join (segments.map fun segment => "[" ++ segment ++ "]")

/-- The name of a filter, without the prefix of reserved parameters. -/
def spell (suffix : Option String) (segments : List String) : String :=
  match suffix with
  | none => "filter" ++ inBrackets segments
  | some suffix => "filter-" ++ suffix ++ inBrackets segments

structure Spellable (suffix : Option String) (segments : List String) : Prop where
  suffix : ∀ s ∈ suffix, IsSuffix s
  ne_nil : segments ≠ []
  segments : ∀ s ∈ segments, IsSegment s

/-! ### Segments in brackets -/

def isBracket (c : Char) : Bool := c == '[' || c == ']'

theorem isSegment_ofList_iff {cs : List Char} :
    IsSegment (String.ofList cs) ↔ cs ≠ [] ∧ ∀ c ∈ cs, isBracket c = false := by
  have hclear : (∀ c ∈ cs, isBracket c = false) ↔ '[' ∉ cs ∧ ']' ∉ cs := by
    simp only [isBracket, Bool.or_eq_false_iff, beq_eq_false_iff_ne, ne_eq]
    constructor
    · exact fun h => ⟨fun hopen => (h _ hopen).1 rfl, fun hclose => (h _ hclose).2 rfl⟩
    · rintro ⟨hopen, hclose⟩ c hc
      exact ⟨fun he => hopen (he ▸ hc), fun he => hclose (he ▸ hc)⟩
  rw [hclear]
  constructor
  · rintro ⟨hne, hopen, hclose⟩
    rw [String.toList_ofList] at hopen hclose
    exact ⟨fun hnil => hne (by simp [hnil]), hopen, hclose⟩
  · rintro ⟨hne, hopen, hclose⟩
    refine ⟨fun hempty => hne ?_, ?_, ?_⟩
    · simpa using congrArg String.toList hempty
    · rwa [String.toList_ofList]
    · rwa [String.toList_ofList]

theorem segmentsFrom_clear {cs : List Char} (h : ∀ c ∈ cs, isBracket c = false)
    (opened rest : List Char) :
    segmentsFrom (some opened) (cs ++ rest) = segmentsFrom (some (cs.reverse ++ opened)) rest := by
  induction cs generalizing opened with
  | nil => rfl
  | cons c cs ih =>
    obtain ⟨hc, hcs⟩ := List.forall_mem_cons.mp h
    obtain ⟨hopen, hclose⟩ : c ≠ '[' ∧ c ≠ ']' := by simpa [isBracket] using hc
    rw [List.cons_append, segmentsFrom, if_neg hclose, if_neg hopen, ih hcs]
    simp

theorem segmentsFrom_segment {segment : List Char} (hne : segment ≠ [])
    (h : ∀ c ∈ segment, isBracket c = false) (rest : List Char) :
    segmentsFrom none ('[' :: (segment ++ ']' :: rest)) =
      (segmentsFrom none rest).map (segment :: ·) := by
  rw [segmentsFrom, if_pos rfl, segmentsFrom_clear h, List.append_nil, segmentsFrom, if_pos rfl,
    if_neg (by simpa using hne), List.reverse_reverse]

theorem segmentsFrom_cases {cs : List Char} {segments : List (List Char)}
    (h : segmentsFrom none cs = some segments) :
    cs = [] ∧ segments = [] ∨
      ∃ segment rest tail, cs = '[' :: (segment ++ ']' :: rest) ∧ segment ≠ [] ∧
        (∀ c ∈ segment, isBracket c = false) ∧ segmentsFrom none rest = some tail ∧
        segments = segment :: tail := by
  cases cs with
  | nil => exact .inl ⟨rfl, by simpa [segmentsFrom, eq_comm] using h⟩
  | cons c cs =>
    rw [segmentsFrom, Option.ite_none_right_eq_some] at h
    obtain ⟨rfl, h⟩ := h
    rcases clear_or_exists_first isBracket cs with hclear | ⟨segment, d, rest, rfl, hclear, hd⟩
    · rw [← List.append_nil cs, segmentsFrom_clear hclear, segmentsFrom] at h
      cases h
    · have hbracket : d = '[' ∨ d = ']' := by simpa [isBracket] using hd
      rw [segmentsFrom_clear hclear, List.append_nil] at h
      rcases hbracket with rfl | rfl
      · simp [segmentsFrom] at h
      · rw [segmentsFrom, if_pos rfl, Option.ite_none_left_eq_some, Option.map_eq_some_iff] at h
        obtain ⟨hne, tail, htail, rfl⟩ := h
        exact .inr ⟨segment, rest, tail, rfl, by simpa using hne, hclear, htail, by simp⟩

theorem segmentsFrom_eq_some_iff {cs : List Char} {segments : List (List Char)} :
    segmentsFrom none cs = some segments ↔
      cs = (inBrackets (segments.map String.ofList)).toList ∧
        ∀ segment ∈ segments, IsSegment (String.ofList segment) := by
  induction segments generalizing cs with
  | nil =>
    constructor
    · intro h
      rcases segmentsFrom_cases h with ⟨rfl, -⟩ | ⟨_, _, _, -, -, -, -, hcons⟩
      · exact ⟨rfl, by simp⟩
      · cases hcons
    · rintro ⟨rfl, -⟩
      rfl
  | cons segment segments ih =>
    have hgroup : (inBrackets ((segment :: segments).map String.ofList)).toList =
        '[' :: (segment ++ ']' :: (inBrackets (segments.map String.ofList)).toList) := by
      simp [inBrackets]
    rw [hgroup, List.forall_mem_cons, isSegment_ofList_iff]
    constructor
    · intro h
      rcases segmentsFrom_cases h with ⟨-, hnil⟩ | ⟨_, rest, _, rfl, hne, hclear, hrest, hcons⟩
      · cases hnil
      · obtain ⟨rfl, rfl⟩ := List.cons.inj hcons
        obtain ⟨rfl, hsegments⟩ := ih.mp hrest
        exact ⟨rfl, ⟨hne, hclear⟩, hsegments⟩
    · rintro ⟨rfl, ⟨hne, hclear⟩, hsegments⟩
      rw [segmentsFrom_segment hne hclear, ih.mpr ⟨rfl, hsegments⟩]
      rfl

theorem pathOf_eq_some_iff {cs : List Char} {path : String} :
    pathOf cs = some path ↔ ∃ segments, segments ≠ [] ∧ (∀ s ∈ segments, IsSegment s) ∧
      cs = (inBrackets segments).toList ∧ path = ".".intercalate segments := by
  unfold pathOf
  constructor
  · intro h
    split at h
    · next segment rest hread =>
      obtain ⟨rfl, hsegments⟩ := segmentsFrom_eq_some_iff.mp hread
      exact ⟨(segment :: rest).map String.ofList, by simp, by simpa using hsegments, rfl,
        (Option.some.inj h).symm⟩
    · cases h
  · rintro ⟨segments, hne, hsegments, rfl, rfl⟩
    have hchars : (segments.map String.toList).map String.ofList = segments := by
      simp [Function.comp_def]
    have hread : segmentsFrom none (inBrackets segments).toList =
        some (segments.map String.toList) := by
      rw [segmentsFrom_eq_some_iff, hchars]
      exact ⟨rfl, by simpa using hsegments⟩
    obtain ⟨first, rest, rfl⟩ := List.exists_cons_of_ne_nil hne
    rw [hread, List.map_cons]
    dsimp only
    rw [← List.map_cons, hchars]

theorem exists_inBrackets_eq {segments : List String} (h : segments ≠ []) :
    ∃ rest, (inBrackets segments).toList = '[' :: rest := by
  obtain ⟨first, rest, rfl⟩ := List.exists_cons_of_ne_nil h
  exact ⟨first.toList ++ ']' :: (inBrackets rest).toList, by simp [inBrackets]⟩

/-! ### Whole names -/

theorem isSuffix_iff {s : String} :
    IsSuffix s ↔
      s.toList.head?.any isSmallLetter = true ∧ ∀ c ∈ s.toList, isSuffixChar c = true := by
  have hletter : ∀ c, isSmallLetter c = true ↔ 'a' ≤ c ∧ c ≤ 'z' := by simp [isSmallLetter]
  have hchar : ∀ c, isSuffixChar c = true ↔ ('a' ≤ c ∧ c ≤ 'z') ∨ c = '-' := by
    simp [isSuffixChar, hletter]
  constructor
  · rintro ⟨first, rest, hs, hfirst, hrest⟩
    rw [hs, List.forall_mem_cons]
    exact ⟨(hletter first).mpr hfirst, (hchar first).mpr (.inl hfirst),
      fun c hc => (hchar c).mpr (hrest c hc)⟩
  · rintro ⟨hfirst, hall⟩
    cases hs : s.toList with
    | nil => simp [hs] at hfirst
    | cons first rest =>
      rw [hs] at hfirst hall
      exact ⟨first, rest, hs, (hletter first).mp hfirst,
        fun c hc => (hchar c).mp (hall c (List.mem_cons_of_mem _ hc))⟩

instance (s : String) : Decidable (IsSuffix s) :=
  decidable_of_iff ((s.toList.head?.any isSmallLetter && s.toList.all isSuffixChar) = true)
    (by rw [isSuffix_iff, Bool.and_eq_true, List.all_eq_true])

theorem read_bracket (rest : List Char) :
    read ("filter".toList ++ '[' :: rest) =
      match pathOf ('[' :: rest) with
      | some path => filter none path
      | none => malformed := by
  rw [read, afterLead_eq_some_iff.mpr rfl]
  rfl

theorem read_hyphen (rest : List Char) :
    read ("filter".toList ++ '-' :: rest) =
      match (rest.takeWhile isSuffixChar).head?.any isSmallLetter,
        pathOf (rest.dropWhile isSuffixChar) with
      | true, some path => filter (some (String.ofList (rest.takeWhile isSuffixChar))) path
      | _, _ => malformed := by
  rw [read, afterLead_eq_some_iff.mpr rfl]
  rfl

/-- Only a name that goes on with a bracket or a hyphen is related to filters. -/
theorem read_cases (name : List Char) :
    (∃ rest, name = "filter".toList ++ '[' :: rest) ∨
      (∃ rest, name = "filter".toList ++ '-' :: rest) ∨ read name = unrelated := by
  unfold read
  split
  · next rest hname => exact .inl ⟨rest, afterLead_eq_some_iff.mp hname⟩
  · next rest hname => exact .inr (.inl ⟨rest, afterLead_eq_some_iff.mp hname⟩)
  · exact .inr (.inr rfl)

theorem read_spell {suffix : Option String} {segments : List String}
    (h : Spellable suffix segments) :
    read (spell suffix segments).toList = .filter suffix (".".intercalate segments) := by
  have hpath := pathOf_eq_some_iff.mpr ⟨segments, h.ne_nil, h.segments, rfl, rfl⟩
  obtain ⟨rest, hrest⟩ := exists_inBrackets_eq h.ne_nil
  rw [hrest] at hpath
  cases suffix with
  | none =>
    have hname : (spell none segments).toList = "filter".toList ++ '[' :: rest := by
      simp [spell, hrest]
    rw [hname, read_bracket, hpath]
  | some suffix =>
    obtain ⟨hhead, hall⟩ := isSuffix_iff.mp (h.suffix suffix rfl)
    have hname : (spell (some suffix) segments).toList =
        "filter".toList ++ '-' :: (suffix.toList ++ '[' :: rest) := by
      simp [spell, hrest]
    have hbracket : ¬ isSuffixChar '[' = true := by decide
    rw [hname, read_hyphen, List.takeWhile_append_of_pos hall, List.dropWhile_append_of_pos hall,
      List.takeWhile_cons_of_neg hbracket, List.dropWhile_cons_of_neg hbracket, List.append_nil,
      hhead, hpath, String.ofList_toList]

/-- A name is read as a filter only if it is spelled like one. -/
theorem exists_spelled_of_read {name path : String} {suffix : Option String}
    (h : read name.toList = .filter suffix path) :
    ∃ segments, Spellable suffix segments ∧ name = spell suffix segments ∧
      path = ".".intercalate segments := by
  rcases read_cases name.toList with ⟨rest, hname⟩ | ⟨rest, hname⟩ | hunrelated
  · rw [hname, read_bracket] at h
    split at h
    · next path hpath =>
      obtain ⟨rfl, rfl⟩ := FilterKey.filter.inj h
      obtain ⟨segments, hne, hsegments, hrest, rfl⟩ := pathOf_eq_some_iff.mp hpath
      refine ⟨segments, ⟨by simp, hne, hsegments⟩, ?_, rfl⟩
      rw [← String.toList_inj, hname, hrest]
      simp [spell]
    · cases h
  · rw [hname, read_hyphen] at h
    split at h
    · next path hhead hpath =>
      obtain ⟨rfl, rfl⟩ := FilterKey.filter.inj h
      obtain ⟨segments, hne, hsegments, hrest, rfl⟩ := pathOf_eq_some_iff.mp hpath
      refine ⟨segments, ⟨?_, hne, hsegments⟩, ?_, rfl⟩
      · rintro s ⟨⟩
        rw [isSuffix_iff, String.toList_ofList]
        exact ⟨hhead, fun c hc => List.mem_takeWhile_imp hc⟩
      · have hcut := List.takeWhile_append_dropWhile (p := isSuffixChar) (l := rest)
        rw [hrest] at hcut
        rw [← String.toList_inj, hname]
        nth_rewrite 1 [← hcut]
        simp [spell]
    · cases h
  · rw [hunrelated] at h
    cases h

/-- A name is left alone exactly if it does not begin like that of a filter. -/
theorem read_eq_unrelated_iff {name : String} :
    read name.toList = .unrelated ↔
      ∀ rest, name ≠ "filter[" ++ rest ∧ name ≠ "filter-" ++ rest := by
  constructor
  · intro h rest
    constructor
    · rintro rfl
      have hname : ("filter[" ++ rest).toList = "filter".toList ++ '[' :: rest.toList := by simp
      rw [hname, read_bracket] at h
      split at h <;> cases h
    · rintro rfl
      have hname : ("filter-" ++ rest).toList = "filter".toList ++ '-' :: rest.toList := by simp
      rw [hname, read_hyphen] at h
      split at h <;> cases h
  · intro h
    rcases read_cases name.toList with ⟨rest, hname⟩ | ⟨rest, hname⟩ | hunrelated
    · refine absurd ?_ (h (String.ofList rest)).1
      rw [← String.toList_inj, hname]
      simp
    · refine absurd ?_ (h (String.ofList rest)).2
      rw [← String.toList_inj, hname]
      simp
    · exact hunrelated

/-! ### Dots and brackets -/

theorem IsSegment.dotted {a b : String} (ha : IsSegment a) (hb : IsSegment b) :
    IsSegment (a ++ "." ++ b) := by
  refine ⟨by simp, ?_, ?_⟩
  · simpa using ⟨ha.no_open, hb.no_open⟩
  · simpa using ⟨ha.no_close, hb.no_close⟩

theorem isSegment_intercalate {segments : List String} (hne : segments ≠ [])
    (h : ∀ s ∈ segments, IsSegment s) : IsSegment (".".intercalate segments) := by
  induction segments with
  | nil => exact absurd rfl hne
  | cons first rest ih =>
    obtain ⟨hfirst, hrest⟩ := List.forall_mem_cons.mp h
    cases rest with
    | nil => simpa using hfirst
    | cons second rest =>
      rw [String.intercalate_cons_cons]
      exact hfirst.dotted (ih (List.cons_ne_nil _ _) hrest)

/-- The segments may be joined with dots instead of standing in brackets of their own. -/
theorem Spellable.joined {suffix : Option String} {segments : List String}
    (h : Spellable suffix segments) : Spellable suffix [".".intercalate segments] :=
  ⟨h.suffix, List.cons_ne_nil _ _,
    List.forall_mem_singleton.mpr (isSegment_intercalate h.ne_nil h.segments)⟩

end FilterKey

namespace FilterClause

open FilterKey

variable {ctx : Context} {clause next : FilterClause}

def beginsFilter (settings : Settings) (key : String) : Bool :=
  (stripLead (settings.param "filter[") key).isSome ||
    (stripLead (settings.param "filter-") key).isSome

/-- The path and the suffix that the name of a filter stands for. -/
def target (filters : Registry) (suffix : Option String) (segments : List String) :
    String × String :=
  match suffix with
  | some suffix => (".".intercalate segments, suffix)
  | none => filters.splitSuffix (".".intercalate segments)

/-- A parameter is a filter by its name, and this is the one that is filed for it. -/
def Files (ctx : Context) (pair : String × String) (f : FiledFilter) : Prop :=
  ∃ suffix segments, Spellable suffix segments ∧
    pair.1 = ctx.settings.param (spell suffix segments) ∧
    add ctx .empty (target ctx.filters suffix segments).1 (target ctx.filters suffix segments).2
      pair.2 = .accept ⟨[f]⟩

/-- What is filed does not depend on what was filed before. -/
theorem exists_add_eq_accept {path suffix value : String}
    (h : add ctx clause path suffix value = .accept next) :
    ∃ f, next.filters = clause.filters ++ [f] ∧
      add ctx .empty path suffix value = .accept ⟨[f]⟩ := by
  obtain ⟨strategy, hstrategy, hallowed, rfl⟩ := add_eq_accept_iff.mp h
  exact ⟨_, rfl, add_eq_accept_iff.mpr ⟨strategy, hstrategy, hallowed, rfl⟩⟩

/-- If each accepted parameter adds one filter or none, accepted parameters add one for each that
does, in their order. -/
theorem forall₂_filters_of_gather {adds : String × String → Bool}
    {R : String × String → FiledFilter → Prop}
    (hstep : ∀ {clause next pair}, take ctx clause pair = .accept next →
      (adds pair = false ∧ next.filters = clause.filters) ∨
        (adds pair = true ∧ ∃ f, R pair f ∧ next.filters = clause.filters ++ [f]))
    {pairs : List (String × String)} (h : gather (take ctx) clause pairs = .accept next) :
    ∃ filters, next.filters = clause.filters ++ filters ∧
      List.Forall₂ R (pairs.filter adds) filters := by
  induction pairs generalizing clause with
  | nil =>
    obtain rfl := Gathered.accept_inj.mp h
    exact ⟨[], by simp, .nil⟩
  | cons pair pairs ih =>
    rw [gather] at h
    split at h
    · next middle hmiddle =>
      obtain ⟨filters, hnext, hfiles⟩ := ih h
      rcases hstep hmiddle with ⟨hadds, hsame⟩ | ⟨hadds, f, hf, hadded⟩
      · refine ⟨filters, by rw [hnext, hsame], ?_⟩
        rwa [List.filter_cons, if_neg (by simp [hadds])]
      · refine ⟨f :: filters, by rw [hnext, hadded, List.append_assoc]; rfl, ?_⟩
        rw [List.filter_cons, if_pos hadds]
        exact .cons hf hfiles
    · simp at h

theorem beginsFilter_iff {settings : Settings} {key : String} :
    beginsFilter settings key = true ↔
      ∃ name, key = settings.param name ∧ FilterKey.read name.toList ≠ .unrelated := by
  have hlead : ∀ lead, (stripLead (settings.param lead) key).isSome = true ↔
      ∃ rest, key = settings.param (lead ++ rest) := by
    intro lead
    simp [Option.isSome_iff_exists, stripLead_eq_some_iff, Settings.param, String.append_assoc]
  simp only [beginsFilter, Bool.or_eq_true, hlead, ne_eq, read_eq_unrelated_iff, not_forall,
    not_and_or, not_not]
  constructor
  · rintro (⟨rest, rfl⟩ | ⟨rest, rfl⟩)
    · exact ⟨_, rfl, rest, .inl rfl⟩
    · exact ⟨_, rfl, rest, .inr rfl⟩
  · rintro ⟨_, rfl, rest, rfl | rfl⟩
    · exact .inl ⟨rest, rfl⟩
    · exact .inr ⟨rest, rfl⟩

theorem beginsFilter_spell {settings : Settings} {suffix : Option String} {segments : List String}
    (h : Spellable suffix segments) :
    beginsFilter settings (settings.param (spell suffix segments)) = true :=
  beginsFilter_iff.mpr ⟨_, rfl, by simp [read_spell h]⟩

section

variable (hstyle : ctx.settings.filterStyle = .bracketed)

include hstyle

theorem take_param (name value : String) :
    take ctx clause (ctx.settings.param name, value) =
      match FilterKey.read name.toList with
      | .unrelated => .accept clause
      | .malformed => .refuse clause (.parameter (.malformedFilter (ctx.settings.param name)))
      | .filter (some suffix) path => add ctx clause path suffix value
      | .filter none path =>
        add ctx clause (ctx.filters.splitSuffix path).1 (ctx.filters.splitSuffix path).2 value := by
  rw [take, hstyle]
  dsimp only
  unfold takeBracketed
  split
  · next hnone =>
    rw [Settings.stripLead_param] at hnone
    cases hnone
  · next rest hrest =>
    rw [Settings.stripLead_param, Option.some_inj] at hrest
    subst hrest
    rfl

theorem take_spell {suffix : Option String} {segments : List String}
    (h : Spellable suffix segments) (value : String) :
    take ctx clause (ctx.settings.param (spell suffix segments), value) =
      add ctx clause (target ctx.filters suffix segments).1 (target ctx.filters suffix segments).2
        value := by
  rw [take_param hstyle, read_spell h]
  cases suffix <;> rfl

theorem take_of_beginsFilter_eq_false {key : String} (h : beginsFilter ctx.settings key = false)
    (value : String) : take ctx clause (key, value) = .accept clause := by
  rw [Bool.eq_false_iff, ne_eq, beginsFilter_iff] at h
  cases hname : stripLead ctx.settings.keyPrefix key with
  | none =>
    rw [take, hstyle]
    dsimp only
    rw [takeBracketed, hname]
  | some name =>
    obtain rfl := stripLead_eq_some_iff.mp hname
    have hread : FilterKey.read name.toList = .unrelated := by
      by_contra hrelated
      exact h ⟨name, rfl, hrelated⟩
    change take ctx clause (ctx.settings.param name, value) = _
    rw [take_param hstyle, hread]

theorem take_of_not_spelled {key : String} (hbegins : beginsFilter ctx.settings key = true)
    (hnot : ∀ suffix segments, Spellable suffix segments →
      key ≠ ctx.settings.param (spell suffix segments)) (value : String) :
    take ctx clause (key, value) = .refuse clause (.parameter (.malformedFilter key)) := by
  obtain ⟨name, rfl, hrelated⟩ := beginsFilter_iff.mp hbegins
  rw [take_param hstyle]
  cases hread : FilterKey.read name.toList with
  | unrelated => exact absurd hread hrelated
  | malformed => rfl
  | filter suffix path =>
    obtain ⟨segments, hspellable, rfl, -⟩ := exists_spelled_of_read hread
    exact absurd rfl (hnot suffix segments hspellable)

theorem filters_of_take {pair : String × String} (h : take ctx clause pair = .accept next) :
    (beginsFilter ctx.settings pair.1 = false ∧ next.filters = clause.filters) ∨
      (beginsFilter ctx.settings pair.1 = true ∧
        ∃ f, Files ctx pair f ∧ next.filters = clause.filters ++ [f]) := by
  obtain ⟨key, value⟩ := pair
  cases hbegins : beginsFilter ctx.settings key with
  | false =>
    rw [take_of_beginsFilter_eq_false hstyle hbegins, Gathered.accept_inj] at h
    exact .inl ⟨rfl, by rw [h]⟩
  | true =>
    by_cases hspelled : ∃ suffix segments, Spellable suffix segments ∧
        key = ctx.settings.param (spell suffix segments)
    · obtain ⟨suffix, segments, hspellable, rfl⟩ := hspelled
      rw [take_spell hstyle hspellable] at h
      obtain ⟨f, hfilters, hadd⟩ := exists_add_eq_accept h
      exact .inr ⟨rfl, f, ⟨suffix, segments, hspellable, rfl, hadd⟩, hfilters⟩
    · simp only [not_exists, not_and] at hspelled
      rw [take_of_not_spelled hstyle hbegins hspelled] at h
      simp at h

theorem filters_of_gather {pairs : List (String × String)}
    (h : gather (take ctx) clause pairs = .accept next) :
    ∃ filters, next.filters = clause.filters ++ filters ∧
      List.Forall₂ (Files ctx) (pairs.filter fun pair => beginsFilter ctx.settings pair.1)
        filters :=
  forall₂_filters_of_gather (fun htake => filters_of_take hstyle htake) h

end

/-- Parameters whose names do not begin like that of a filter are left alone; those that are spelled
like filters are handled by the path and the suffix that they are spelled with, wherever the path
has dots in place of brackets; all others are refused by their names. What is accepted has one
filter for each parameter that is one. -/
theorem bracketed_keys_exact {ctx : Context} (hstyle : ctx.settings.filterStyle = .bracketed)
    (clause : FilterClause) :
    (∀ key value, beginsFilter ctx.settings key = false →
      take ctx clause (key, value) = .accept clause) ∧
    (∀ suffix segments value, Spellable suffix segments →
      beginsFilter ctx.settings (ctx.settings.param (spell suffix segments)) = true ∧
      take ctx clause (ctx.settings.param (spell suffix segments), value) =
        add ctx clause (target ctx.filters suffix segments).1
          (target ctx.filters suffix segments).2 value ∧
      take ctx clause (ctx.settings.param (spell suffix [".".intercalate segments]), value) =
        take ctx clause (ctx.settings.param (spell suffix segments), value)) ∧
    (∀ key value, beginsFilter ctx.settings key = true →
      (∀ suffix segments, Spellable suffix segments →
        key ≠ ctx.settings.param (spell suffix segments)) →
      ∃ failure, failure.kind = .invalidQueryParameter ∧
        failure.message = s!"Malformed filter parameter \"{key}\"" ∧
        take ctx clause (key, value) = .refuse clause failure) ∧
    ∀ ps next, read ctx ps clause = .accept next →
      ∃ filters, next.filters = clause.filters ++ filters ∧
        List.Forall₂ (Files ctx) (ps.pairs.filter fun pair => beginsFilter ctx.settings pair.1)
          filters := by
  refine ⟨fun key value h => take_of_beginsFilter_eq_false hstyle h value,
    fun suffix segments value h => ⟨beginsFilter_spell h, take_spell hstyle h value, ?_⟩,
    fun key value hbegins hnot => ⟨_, rfl, rfl, take_of_not_spelled hstyle hbegins hnot value⟩,
    fun ps next h => filters_of_gather hstyle h⟩
  have htarget : target ctx.filters suffix [".".intercalate segments] =
      target ctx.filters suffix segments := by
    simp only [target, String.intercalate_singleton]
  rw [take_spell hstyle h.joined, take_spell hstyle h, htarget]

def openListing : Context where
  settings := { Settings.default with keyPrefix := "_" }
  allow := .permissive
  schema := .empty
  entity := .ofTable "posts" "posts"
  filters := .default

def sortedAndFiltered : Parameters :=
  ⟨[("_sort", "-id"), ("_filter-lk[comments][title]", "x*"), ("_filter[id]", "1")]⟩

theorem bracketed_keys_exact_of_comments :
    take openListing .empty ("_sort", "-id") = .accept .empty ∧
    take openListing .empty ("_filter-lk[comments][title]", "x*") =
      add openListing .empty "comments.title" "lk" "x*" ∧
    take openListing .empty ("_filter-lk[comments.title]", "x*") =
      take openListing .empty ("_filter-lk[comments][title]", "x*") ∧
    (∃ failure, failure.kind = .invalidQueryParameter ∧
      take openListing .empty ("_filter[]", "1") = .refuse .empty failure) ∧
    ∃ next, read openListing sortedAndFiltered .empty = .accept next ∧
      List.Forall₂ (Files openListing)
        [("_filter-lk[comments][title]", "x*"), ("_filter[id]", "1")] next.filters := by
  have hstyle : openListing.settings.filterStyle = .bracketed := rfl
  obtain ⟨hother, hspelled, hrefused, hread⟩ := bracketed_keys_exact hstyle .empty
  have hcomments : Spellable (some "lk") ["comments", "title"] := by
    refine ⟨?_, by decide, ?_⟩
    · rintro s ⟨⟩
      decide +kernel
    · simp only [List.forall_mem_cons]
      exact ⟨⟨by decide, by decide, by decide⟩, ⟨by decide, by decide, by decide⟩, by simp⟩
  have hbrackets : openListing.settings.param (spell (some "lk") ["comments", "title"]) =
      "_filter-lk[comments][title]" := by decide +kernel
  have hdots : openListing.settings.param
      (spell (some "lk") [".".intercalate ["comments", "title"]]) =
        "_filter-lk[comments.title]" := by decide +kernel
  have htarget : target openListing.filters (some "lk") ["comments", "title"] =
      ("comments.title", "lk") := by decide +kernel
  have hempty : ∀ suffix segments, Spellable suffix segments →
      "_filter[]" ≠ openListing.settings.param (spell suffix segments) := by
    intro suffix segments h heq
    have hname : openListing.settings.param "filter[]" = "_filter[]" := by decide +kernel
    have hmalformed : FilterKey.read "filter[]".toList = .malformed := by decide +kernel
    rw [Settings.param_inj.mp (hname.trans heq), read_spell h] at hmalformed
    cases hmalformed
  obtain ⟨-, hcommentsRead, hcommentsJoined⟩ := hspelled _ _ "x*" hcomments
  rw [hbrackets, htarget] at hcommentsRead
  rw [hbrackets, hdots] at hcommentsJoined
  obtain ⟨failure, hkind, -, hrefusal⟩ := hrefused "_filter[]" "1" (by decide +kernel) hempty
  have hnone : (read openListing sortedAndFiltered .empty).refusal = none := by decide +kernel
  have haccept : read openListing sortedAndFiltered .empty =
      .accept (read openListing sortedAndFiltered .empty).state := by
    rw [Gathered.accept, ← hnone]
  have hnames : (sortedAndFiltered.pairs.filter fun pair =>
      beginsFilter openListing.settings pair.1) =
        [("_filter-lk[comments][title]", "x*"), ("_filter[id]", "1")] := by decide +kernel
  obtain ⟨filters, hfilters, hfiles⟩ := hread _ _ haccept
  rw [hnames] at hfiles
  refine ⟨hother "_sort" "-id" (by decide +kernel), hcommentsRead, hcommentsJoined,
    ⟨failure, hkind, hrefusal⟩, _, haccept, ?_⟩
  rw [hfilters]
  exact hfiles

end FilterClause

end RestQuery
