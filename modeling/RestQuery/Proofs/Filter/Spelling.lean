import RestQuery.Proofs.Filter.Key
import RestQuery.Proofs.Filter.Suffix

/-!
# The two places of a suffix

The suffix of a filter stands before the brackets, or at the end of the path behind a hyphen. A path
without hyphens ends in a suffix in one way only, so a registered suffix makes the same filter in
either place. The word `default` names the empty suffix without being registered: before the
brackets it is read so, but behind a hyphen it is taken for a part of the path.
-/

namespace RestQuery

namespace Registry

variable {registry : Registry} {path column suffix suffix' : String}

/-- Where a path without hyphens is followed by a suffix, only an end of this suffix is cut off. -/
theorem Cut.eq_or_exists_hyphen (hhyphen : '-' ∉ path.toList)
    (h : registry.Cut (path ++ "-" ++ suffix) column suffix') :
    suffix' = suffix ∨ ∃ front, suffix = front ++ "-" ++ suffix' := by
  have hchars : path.toList ++ '-' :: suffix.toList = column.toList ++ '-' :: suffix'.toList := by
    simpa using congrArg String.toList h.path_eq
  rcases List.append_eq_append_iff.mp hchars with ⟨rest, -, hrest⟩ | ⟨rest, hpath, hrest⟩
  · cases rest with
    | nil => exact .inl (String.toList_inj.mp (List.cons.inj hrest).2.symm)
    | cons c rest =>
      refine .inr ⟨String.ofList rest, ?_⟩
      rw [← String.toList_inj, (List.cons.inj hrest).2]
      simp
  · cases rest with
    | nil => exact .inl (String.toList_inj.mp (List.cons.inj hrest).2)
    | cons c rest =>
      obtain rfl := (List.cons.inj hrest).1
      rw [hpath] at hhyphen
      exact absurd (List.mem_append_right _ List.mem_cons_self) hhyphen

theorem splitSuffix_of_registered (hpath : path ≠ "") (hhyphen : '-' ∉ path.toList)
    (hsuffix : suffix ≠ "") (hregistered : suffix ∈ registry.strategies.keys) :
    registry.splitSuffix (path ++ "-" ++ suffix) = (path, suffix) := by
  have h : registry.Cut (path ++ "-" ++ suffix) path suffix := ⟨hregistered, hsuffix, hpath, rfl⟩
  refine (h.longest String.length_append (by simp) fun column' suffix' h' => ?_).splitSuffix_eq
  rcases h'.eq_or_exists_hyphen hhyphen with rfl | ⟨front, rfl⟩
  · exact le_rfl
  · simp

theorem splitSuffix_of_not_registered (hhyphen : '-' ∉ path.toList)
    (hsuffix : '-' ∉ suffix.toList) (hnot : suffix ∉ registry.strategies.keys) :
    registry.splitSuffix (path ++ "-" ++ suffix) = (path ++ "-" ++ suffix, "") := by
  refine splitSuffix_of_no_cut fun column' suffix' h => ?_
  rcases h.eq_or_exists_hyphen hhyphen with rfl | ⟨front, rfl⟩
  · exact hnot h.registered
  · simp at hsuffix

theorem registered_of_resolve (h : (registry.resolve suffix).isSome = true)
    (hne : suffix ≠ "default") : suffix ∈ registry.strategies.keys := by
  unfold resolve at h
  rw [if_neg hne] at h
  exact Dict.mem_keys_iff.mpr (Option.isSome_iff_exists.mp h)

theorem resolve_default (registry : Registry) :
    registry.resolve "default" = registry.resolve "" := by
  unfold resolve
  rw [if_pos rfl, ite_self]

end Registry

namespace FilterKey

variable {path suffix : String}

theorem IsSuffix.ne_empty (h : IsSuffix suffix) : suffix ≠ "" := by
  rintro rfl
  obtain ⟨first, rest, hs, -⟩ := h
  simp at hs

theorem IsSegment.hyphen (hpath : IsSegment path) (hsuffix : IsSuffix suffix) :
    IsSegment (path ++ "-" ++ suffix) := by
  have hchars := (isSuffix_iff.mp hsuffix).2
  have hopen : '[' ∉ suffix.toList := fun hc => absurd (hchars _ hc) (by decide)
  have hclose : ']' ∉ suffix.toList := fun hc => absurd (hchars _ hc) (by decide)
  refine ⟨by simp, ?_, ?_⟩
  · simpa using ⟨hpath.no_open, hopen⟩
  · simpa using ⟨hpath.no_close, hclose⟩

end FilterKey

namespace FilterClause

open FilterKey

variable {ctx : Context} {clause : FilterClause} {path path' suffix suffix' value : String}

theorem read_ofPairs_singleton (key value : String) :
    read ctx (.ofPairs [(key, value)]) clause = take ctx clause (key, value) := by
  change gather (take ctx) clause [(key, value)] = _
  rw [gather]
  split
  · next state hstate =>
    rw [hstate]
    rfl
  · next state failure hstate =>
    rw [hstate]
    rfl

/-- A filter whose suffix resolves is filed with its path, or refused with it. -/
theorem add_of_resolve (clause : FilterClause) (path value : String)
    (h : (ctx.filters.resolve suffix).isSome = true) :
    (∃ f : FiledFilter, f.path = path ∧
        add ctx clause path suffix value = .accept ⟨clause.filters ++ [f]⟩) ∨
      add ctx clause path suffix value = .refuse clause (.filter path) := by
  obtain ⟨strategy, hstrategy⟩ := Option.isSome_iff_exists.mp h
  rw [add, hstrategy]
  dsimp only
  split
  · exact .inl ⟨_, rfl, rfl⟩
  · exact .inr rfl

theorem path_eq_of_add_eq (hsuffix : (ctx.filters.resolve suffix).isSome = true)
    (hsuffix' : (ctx.filters.resolve suffix').isSome = true)
    (h : add ctx clause path suffix value = add ctx clause path' suffix' value) : path = path' := by
  rcases add_of_resolve clause path value hsuffix with ⟨f, hf, hadd⟩ | hadd
  · rcases add_of_resolve clause path' value hsuffix' with ⟨f', hf', hadd'⟩ | hadd'
    · rw [hadd, hadd', Gathered.accept_inj, FilterClause.mk.injEq, List.append_cancel_left_eq,
        List.singleton_inj] at h
      rw [← hf, ← hf', h]
    · rw [hadd, hadd'] at h
      exact absurd h.symm (Gathered.refuse_ne_accept _ _ _)
  · rcases add_of_resolve clause path' value hsuffix' with ⟨f', hf', hadd'⟩ | hadd'
    · rw [hadd, hadd'] at h
      simp at h
    · rw [hadd, hadd'] at h
      simpa [Gathered.refuse] using h

section

variable (hstyle : ctx.settings.filterStyle = .bracketed)

include hstyle

theorem read_before_brackets (hsuffix : IsSuffix suffix) (hpath : IsSegment path)
    (clause : FilterClause) (value : String) :
    read ctx (.ofPairs [(ctx.settings.param (spell (some suffix) [path]), value)]) clause =
      add ctx clause path suffix value := by
  have h : Spellable (some suffix) [path] :=
    ⟨by simpa using hsuffix, List.cons_ne_nil _ _, List.forall_mem_singleton.mpr hpath⟩
  rw [read_ofPairs_singleton, take_spell hstyle h, target, String.intercalate_singleton]

theorem read_behind_hyphen (hsuffix : IsSuffix suffix) (hpath : IsSegment path)
    (clause : FilterClause) (value : String) :
    read ctx (.ofPairs [(ctx.settings.param (spell none [path ++ "-" ++ suffix]), value)]) clause =
      add ctx clause (ctx.filters.splitSuffix (path ++ "-" ++ suffix)).1
        (ctx.filters.splitSuffix (path ++ "-" ++ suffix)).2 value := by
  have h : Spellable none [path ++ "-" ++ suffix] :=
    ⟨by simp, List.cons_ne_nil _ _, List.forall_mem_singleton.mpr (hpath.hyphen hsuffix)⟩
  rw [read_ofPairs_singleton, take_spell hstyle h, target, String.intercalate_singleton]

end

/-- Before the brackets a suffix that resolves is the suffix of the filter, and behind a hyphen it is
so if it is registered. So the two spellings have the same outcome, but for the word that names the
empty suffix, unless it is registered itself. -/
theorem spellings_agree_iff {ctx : Context} {path suffix : String}
    (hstyle : ctx.settings.filterStyle = .bracketed) (hsuffix : IsSuffix suffix)
    (hresolves : (ctx.filters.resolve suffix).isSome = true) (hpath : IsSegment path)
    (hhyphen : '-' ∉ path.toList) (clause : FilterClause) (value : String) :
    read ctx (.ofPairs [(ctx.settings.param (spell (some suffix) [path]), value)]) clause =
      add ctx clause path suffix value ∧
    read ctx (.ofPairs [(ctx.settings.param (spell none [path ++ "-" ++ suffix]), value)]) clause =
      (if suffix ∈ ctx.filters.strategies.keys then add ctx clause path suffix value
        else add ctx clause (path ++ "-" ++ suffix) "" value) ∧
    (read ctx (.ofPairs [(ctx.settings.param (spell (some suffix) [path]), value)]) clause =
        read ctx (.ofPairs [(ctx.settings.param (spell none [path ++ "-" ++ suffix]), value)])
          clause ↔
      (suffix = "default" → "default" ∈ ctx.filters.strategies.keys)) := by
  rw [read_before_brackets hstyle hsuffix hpath, read_behind_hyphen hstyle hsuffix hpath]
  by_cases hregistered : suffix ∈ ctx.filters.strategies.keys
  · rw [Registry.splitSuffix_of_registered hpath.ne_empty hhyphen hsuffix.ne_empty hregistered,
      if_pos hregistered]
    exact ⟨rfl, rfl, fun _ hword => hword ▸ hregistered, fun _ => rfl⟩
  · obtain rfl : suffix = "default" := by
      by_contra hne
      exact hregistered (Registry.registered_of_resolve hresolves hne)
    rw [Registry.splitSuffix_of_not_registered hhyphen (by decide) hregistered,
      if_neg hregistered]
    refine ⟨rfl, rfl, fun heq => ?_, fun h => absurd (h rfl) hregistered⟩
    have hempty : (ctx.filters.resolve "").isSome = true := by
      rwa [← Registry.resolve_default]
    rw [path_eq_of_add_eq hresolves hempty heq] at hhyphen
    simp at hhyphen

/-- A negated suffix, which ends in another one. -/
theorem spellings_agree_of_not_lk :
    read openListing (.ofPairs [("_filter-not-lk[title]", "x*")]) .empty =
      add openListing .empty "title" "not-lk" "x*" ∧
    read openListing (.ofPairs [("_filter-not-lk[title]", "x*")]) .empty =
      read openListing (.ofPairs [("_filter[title-not-lk]", "x*")]) .empty := by
  have hstyle : openListing.settings.filterStyle = .bracketed := rfl
  have hsuffix : IsSuffix "not-lk" := by decide
  have hresolves : (openListing.filters.resolve "not-lk").isSome = true := by decide
  have hpath : IsSegment "title" := ⟨by decide, by decide, by decide⟩
  have hbefore : openListing.settings.param (spell (some "not-lk") ["title"]) =
      "_filter-not-lk[title]" := by decide
  have hbehind : openListing.settings.param (spell none ["title" ++ "-" ++ "not-lk"]) =
      "_filter[title-not-lk]" := by decide
  obtain ⟨hadd, -, hagree⟩ :=
    spellings_agree_iff hstyle hsuffix hresolves hpath (by decide) .empty "x*"
  rw [hbefore] at hadd
  rw [hbefore, hbehind] at hagree
  exact ⟨hadd, hagree.mpr fun hword => absurd hword (by decide)⟩

/-- Before the brackets the word for the empty suffix is not a part of the path. Behind them it
is. -/
theorem default_spellings_differ :
    IsSuffix "default" ∧ (openListing.filters.resolve "default").isSome = true ∧
    (read openListing (.ofPairs [("_filter-default[title]", "x")]) .empty).refusal = none ∧
    (read openListing (.ofPairs [("_filter[title-default]", "x")]) .empty).refusal = none ∧
    read openListing (.ofPairs [("_filter-default[title]", "x")]) .empty ≠
      read openListing (.ofPairs [("_filter[title-default]", "x")]) .empty := by
  have hbefore : (read openListing (.ofPairs [("_filter-default[title]", "x")])
      .empty).state.filters.map FiledFilter.path = ["title"] := by decide
  have hbehind : (read openListing (.ofPairs [("_filter[title-default]", "x")])
      .empty).state.filters.map FiledFilter.path = ["title-default"] := by decide
  refine ⟨by decide, by decide, by decide, by decide,
    fun heq => ?_⟩
  rw [heq, hbehind] at hbefore
  exact absurd hbefore (by decide)

end FilterClause

end RestQuery
