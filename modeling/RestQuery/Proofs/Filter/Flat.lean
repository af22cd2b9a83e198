import RestQuery.Proofs.Filter.Key
import RestQuery.Proofs.Filter.Suffix

/-!
# Names of flat filters

In the flat style a parameter is a filter if its name is neither reserved nor spelled in brackets.
The test for reserved names goes further where they have no prefix: whatever begins with `filter` is
left alone, so a filter on a column that begins like this is dropped without a word.
-/

namespace RestQuery

open Text

theorem Settings.isReserved_iff {settings : Settings} (hbare : settings.keyPrefix = "")
    {key : String} : settings.isReserved key = true ↔
      key ∈ reservedNames ∨ ∃ rest, key = "filter" ++ rest := by
  have hname : stripLead settings.keyPrefix key = some key := by
    rw [hbare, stripLead_eq_some_iff, String.empty_append]
  unfold isReserved
  rw [hname]
  simp [hbare, Option.isSome_iff_exists, stripLead_eq_some_iff]

/-- The name of a flat filter is its path with the longest registered suffix behind it, or the path
alone. -/
inductive Registry.SplitsInto (registry : Registry) : (name path suffix : String) → Prop
  | suffixed {name path suffix : String} (hcut : registry.LongestCut name path suffix) :
      SplitsInto registry name path suffix
  | plain {path : String} (hnone : ∀ column suffix, ¬ registry.Cut path column suffix) :
      SplitsInto registry path path ""

theorem Registry.splitsInto_splitSuffix (registry : Registry) (name : String) :
    registry.SplitsInto name (registry.splitSuffix name).1 (registry.splitSuffix name).2 := by
  rcases registry.splitSuffix_cases name with ⟨path, suffix, hcut, hsplit⟩ | ⟨hnone, hsplit⟩
  · rw [hsplit]
    exact .suffixed hcut
  · rw [hsplit]
    exact .plain hnone

namespace FilterKey

/-- A name that is neither reserved nor that of a bracketed filter. -/
structure IsFlat (key : String) : Prop where
  not_reserved : key ∉ Settings.reservedNames
  not_bracketed : ∀ suffix segments, Spellable suffix segments → key ≠ spell suffix segments

def isFilter : FilterKey → Bool
  | filter _ _ => true
  | _ => false

theorem isFlat_iff {key : String} :
    IsFlat key ↔ key ∉ Settings.reservedNames ∧ (read key.toList).isFilter = false := by
  constructor
  · rintro ⟨hreserved, hbracketed⟩
    refine ⟨hreserved, ?_⟩
    cases hread : read key.toList with
    | filter suffix path =>
      obtain ⟨segments, hspellable, hkey, -⟩ := exists_spelled_of_read hread
      exact absurd hkey (hbracketed suffix segments hspellable)
    | _ => rfl
  · rintro ⟨hreserved, hread⟩
    refine ⟨hreserved, ?_⟩
    rintro suffix segments hspellable rfl
    rw [read_spell hspellable] at hread
    cases hread

instance (key : String) : Decidable (IsFlat key) := decidable_of_iff _ isFlat_iff.symm

theorem exists_spell_eq (suffix : Option String) (segments : List String) :
    ∃ rest, spell suffix segments = "filter" ++ rest := by
  cases suffix with
  | none => exact ⟨inBrackets segments, rfl⟩
  | some suffix =>
    exact ⟨"-" ++ (suffix ++ inBrackets segments), by simp [spell, ← String.toList_inj]⟩

/-- Of the flat filters only those whose names begin with `filter` are left alone. -/
theorem isReserved_eq_false_iff {settings : Settings} (hbare : settings.keyPrefix = "")
    {key : String} : settings.isReserved key = false ↔
      IsFlat key ∧ ∀ rest, key ≠ "filter" ++ rest := by
  rw [← Bool.not_eq_true, Settings.isReserved_iff hbare, not_or, not_exists]
  constructor
  · rintro ⟨hreserved, hbegins⟩
    refine ⟨⟨hreserved, ?_⟩, hbegins⟩
    rintro suffix segments - rfl
    obtain ⟨rest, hrest⟩ := exists_spell_eq suffix segments
    exact hbegins rest hrest
  · rintro ⟨hflat, hbegins⟩
    exact ⟨hflat.not_reserved, hbegins⟩

end FilterKey

namespace FilterClause

open FilterKey

variable {ctx : Context} {clause next : FilterClause}

structure FilesFlat (ctx : Context) (pair : String × String) (f : FiledFilter) : Prop where
  allowed : Glob.isAllowed f.path ctx.allow.filterable = true
  relation_eq : f.relation = (splitPath f.path).1
  predicate_eq : ∃ suffix strategy, ctx.filters.SplitsInto pair.1 f.path suffix ∧
    ctx.filters.resolve suffix = some strategy ∧
    f.predicate = strategy.build (splitPath f.path).2 pair.2

theorem filesFlat_of_add {key path suffix value : String}
    (hsplits : ctx.filters.SplitsInto key path suffix)
    (h : add ctx clause path suffix value = .accept next) :
    ∃ f, FilesFlat ctx (key, value) f ∧ next.filters = clause.filters ++ [f] := by
  obtain ⟨strategy, hstrategy, hallowed, rfl⟩ := add_eq_accept_iff.mp h
  exact ⟨⟨(splitPath path).1, path, strategy.build (splitPath path).2 value⟩,
    ⟨hallowed, rfl, suffix, strategy, hsplits, hstrategy, rfl⟩, rfl⟩

section

variable (hstyle : ctx.settings.filterStyle = .flat)

include hstyle

theorem filters_of_takeFlat {pair : String × String} (h : take ctx clause pair = .accept next) :
    ((!ctx.settings.isReserved pair.1) = false ∧ next.filters = clause.filters) ∨
      ((!ctx.settings.isReserved pair.1) = true ∧
        ∃ f, FilesFlat ctx pair f ∧ next.filters = clause.filters ++ [f]) := by
  rw [take, hstyle] at h
  dsimp only at h
  unfold takeFlat at h
  cases hreserved : ctx.settings.isReserved pair.1 with
  | true =>
    rw [if_pos hreserved, Gathered.accept_inj] at h
    exact .inl ⟨rfl, by rw [h]⟩
  | false =>
    rw [if_neg (by simp [hreserved])] at h
    exact .inr ⟨rfl, filesFlat_of_add (ctx.filters.splitsInto_splitSuffix pair.1) h⟩

/-- What is accepted has one filter, in the order of the parameters, for each flat filter whose name
does not begin with `filter`. So none is dropped exactly if there is no other. -/
theorem flat_filters_filed_iff {ps : Parameters} (hbare : ctx.settings.keyPrefix = "")
    (h : read ctx ps clause = .accept next) :
    ∃ filters, next.filters = clause.filters ++ filters ∧
      List.Forall₂ (FilesFlat ctx)
        (ps.pairs.filter fun pair => !ctx.settings.isReserved pair.1) filters ∧
      (∀ key, ctx.settings.isReserved key = false ↔
        IsFlat key ∧ ∀ rest, key ≠ "filter" ++ rest) ∧
      (List.Forall₂ (FilesFlat ctx) (ps.pairs.filter fun pair => IsFlat pair.1) filters ↔
        ∀ pair ∈ ps.pairs, IsFlat pair.1 → ∀ rest, pair.1 ≠ "filter" ++ rest) := by
  obtain ⟨filters, hfilters, hfiled⟩ :=
    forall₂_filters_of_gather (fun htake => filters_of_takeFlat hstyle htake) h
  have hfree : ∀ key, ctx.settings.isReserved key = false ↔
      IsFlat key ∧ ∀ rest, key ≠ "filter" ++ rest := fun _ => isReserved_eq_false_iff hbare
  -- the filters that are filed are among the flat ones, so they are all if they are as many
  have hamong : (ps.pairs.filter fun pair => !ctx.settings.isReserved pair.1) =
      (ps.pairs.filter fun pair => IsFlat pair.1).filter fun pair =>
        !ctx.settings.isReserved pair.1 := by
    rw [List.filter_filter]
    refine List.filter_congr fun pair _ => ?_
    cases hreserved : ctx.settings.isReserved pair.1 with
    | true => rfl
    | false => simp [((hfree pair.1).mp hreserved).1]
  refine ⟨filters, hfilters, hfiled, hfree, fun hall => ?_, fun hnone => ?_⟩
  · have hlength := hfiled.length_eq.trans hall.length_eq.symm
    rw [hamong] at hlength
    have hsame := List.filter_sublist.eq_of_length hlength
    intro pair hpair hflat
    have hmem : pair ∈ ps.pairs.filter fun pair => IsFlat pair.1 :=
      List.mem_filter.mpr ⟨hpair, by simpa using hflat⟩
    have hkept := List.filter_eq_self.mp hsame pair hmem
    exact ((hfree pair.1).mp (by simpa using hkept)).2
  · rw [hamong, List.filter_eq_self.mpr] at hfiled
    · exact hfiled
    · intro pair hpair
      obtain ⟨hmem, hflat⟩ := List.mem_filter.mp hpair
      rw [decide_eq_true_eq] at hflat
      simpa using (hfree pair.1).mpr ⟨hflat, hnone pair hmem hflat⟩

end

def flatListing : Context where
  settings := { Settings.default with filterStyle := .flat }
  allow := .permissive
  schema := .empty
  entity := .ofTable "posts" "posts"
  filters := .default

def flatParameters : Parameters := ⟨[("title-lk", "x*"), ("sort", "id"), ("id-min", "5")]⟩

theorem flat_filters_filed_iff_of_title :
    flatListing.settings.filterStyle = .flat ∧ flatListing.settings.keyPrefix = "" ∧
    ∃ next, read flatListing flatParameters .empty = .accept next ∧
      List.Forall₂ (FilesFlat flatListing) [("title-lk", "x*"), ("id-min", "5")] next.filters := by
  have hnone : (read flatListing flatParameters .empty).refusal = none := by decide
  have haccept : read flatListing flatParameters .empty =
      .accept (read flatListing flatParameters .empty).state := by
    rw [Gathered.accept, ← hnone]
  obtain ⟨filters, hfilters, -, hfree, hall⟩ := flat_filters_filed_iff rfl rfl haccept
  have hflat : (flatParameters.pairs.filter fun pair => IsFlat pair.1) =
      [("title-lk", "x*"), ("id-min", "5")] := by decide
  have hbegins : ∀ pair ∈ flatParameters.pairs, IsFlat pair.1 →
      flatListing.settings.isReserved pair.1 = false := by decide
  rw [hflat] at hall
  refine ⟨rfl, rfl, _, haccept, ?_⟩
  rw [hfilters]
  exact hall.mpr fun pair hpair h => ((hfree pair.1).mp (hbegins pair hpair h)).2

/-- A filter on the column `filtered` is accepted and dropped. -/
theorem filtered_dropped :
    IsFlat "filtered" ∧
      read flatListing ⟨[("filtered", "1")]⟩ .empty = .accept .empty ∧
      read flatListing ⟨[("altered", "1")]⟩ .empty =
        .accept ⟨[⟨rootPath, "altered", .compare "altered" .eq "1"⟩]⟩ := by
  refine ⟨by decide, by rfl, by rfl⟩

end FilterClause

end RestQuery
