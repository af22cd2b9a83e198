import RestQuery.Clause.Search
import RestQuery.Proofs.Sql.Engine
import RestQuery.Proofs.Text.Words

/-!
# Searches for words

Without a full-text index a search term finds the rows in which some searchable column contains some
word of the term. Wildcards in a word are literal. A term without words finds nothing, and no word
is empty, so no pattern finds everything.
-/

namespace RestQuery

open Sql

/-- What a predicate on rows of a table has to be so that it finds the words of a term in some
columns. -/
structure Predicate.FindsWords (p : Predicate) (table : String) (columns : List String)
    (term : String) : Prop where
  holds : ∀ {Cell : Type} (engine : Engine Cell) (row : ColumnRef → Option Cell),
    p.truth (engine.truth row) table = .yes ↔
      (∃ c ∈ term.toList, Text.isBlank c = false) ∧
        ∃ column ∈ columns, ∃ stored, row (.resolve table column) = some stored ∧
          ∃ word, Text.IsWord word term ∧ Like.Contains engine.same word (engine.text stored)
  blank : (∀ c ∈ term.toList, Text.isBlank c = true) →
    ∀ {Cell : Type} (engine : Engine Cell) (row : ColumnRef → Option Cell),
      p.truth (engine.truth row) table = .no
  selective : ∀ parts, p = .any parts → ∀ part ∈ parts, ∃ column pattern,
    part = .like column pattern false (some '\\') ∧
      ∀ same, Like.isInstance same (some '\\') pattern "" = false

namespace SearchTerm

variable {s : SearchTerm}

theorem truth_keywords_eq_yes_iff {Cell : Type} {engine : Engine Cell}
    {row : ColumnRef → Option Cell} {table : String} :
    s.keywords.truth (engine.truth row) table = .yes ↔
      ∃ column ∈ s.columns, ∃ stored, row (.resolve table column) = some stored ∧
        ∃ word, Text.IsWord word s.term ∧ Like.Contains engine.same word (engine.text stored) := by
  unfold keywords
  rw [Predicate.truth, Truth.disjunction_eq_yes_iff, Predicate.truths_eq_map, List.mem_map]
  constructor
  · rintro ⟨part, hpart, hholds⟩
    obtain ⟨column, hcolumn, hpart⟩ := List.mem_flatMap.mp hpart
    obtain ⟨word, hword, rfl⟩ := List.mem_map.mp hpart
    obtain ⟨stored, hstored, hinstance⟩ := (engine.truth_like_eq_yes_iff row).mp hholds
    exact ⟨column, hcolumn, stored, hstored, word, Text.mem_words_iff.mp hword,
      Like.isInstance_containing_iff.mp hinstance⟩
  · rintro ⟨column, hcolumn, stored, hstored, word, hword, hcontains⟩
    exact ⟨_, List.mem_flatMap.mpr ⟨column, hcolumn,
        List.mem_map.mpr ⟨word, Text.mem_words_iff.mpr hword, rfl⟩⟩,
      (engine.truth_like_eq_yes_iff row).mpr
        ⟨stored, hstored, Like.isInstance_containing_iff.mpr hcontains⟩⟩

theorem findsWords_keywords {table : String} (h : Text.trim s.term ≠ "") :
    s.keywords.FindsWords table s.columns s.term where
  holds engine row := by
    rw [truth_keywords_eq_yes_iff]
    refine ⟨fun hfound => ⟨?_, hfound⟩, And.right⟩
    obtain ⟨_, _, _, _, _, hword, _⟩ := hfound
    exact hword.exists_not_isBlank
  blank hblank := absurd (Text.trim_eq_empty_iff.mpr hblank) h
  selective parts hparts part hpart := by
    obtain rfl := Predicate.any.inj hparts
    obtain ⟨column, -, hpart⟩ := List.mem_flatMap.mp hpart
    obtain ⟨word, hword, rfl⟩ := List.mem_map.mp hpart
    refine ⟨column, _, rfl, fun same => ?_⟩
    rw [Bool.eq_false_iff, ne_eq, Like.isInstance_containing_iff]
    exact Like.not_contains_empty (Text.mem_words_iff.mp hword).ne_empty

theorem findsWords_never {table term : String} {columns : List String}
    (h : ∀ c ∈ term.toList, Text.isBlank c = true) :
    Predicate.never.FindsWords table columns term where
  holds engine row := by
    constructor
    · exact nofun
    · rintro ⟨⟨c, hc, hnot⟩, -⟩
      rw [h c hc] at hnot
      cases hnot
  blank _ _ _ _ := rfl
  selective := nofun

end SearchTerm

namespace SearchClause

/-- With the driver that looks for words, a search adds one predicate to the plan, and it holds of
the rows in which a searchable column contains a word of the term. -/
theorem search_finds_words {ctx : Context} {ps : Parameters} {term : String}
    (hdriver : ctx.settings.searchDriver = .like)
    (hterm : ctx.param? ps ["search", "q"] = some term) (hcolumns : ctx.allow.searchable ≠ [])
    (earlier : SearchClause) :
    ∃ clause, read ctx ps earlier = .accept clause ∧
      ∀ plan : Plan, ∃ added, clause.apply plan = plan.addPredicate added ∧
        added.FindsWords plan.table ctx.allow.searchable term := by
  let s : SearchTerm := ⟨term, .like, ctx.allow.searchable, ctx.settings.scoreColumn⟩
  have hread : read ctx ps earlier = .accept ⟨some s⟩ := by
    unfold read
    rw [hterm, hdriver]
    exact if_neg hcolumns
  refine ⟨_, hread, fun plan => ?_⟩
  change ∃ added, s.apply plan = _ ∧ _
  unfold SearchTerm.apply
  by_cases hblank : Text.trim s.term = ""
  · rw [if_pos hblank]
    exact ⟨_, rfl, SearchTerm.findsWords_never (Text.trim_eq_empty_iff.mp hblank)⟩
  · rw [if_neg hblank]
    exact ⟨_, rfl, SearchTerm.findsWords_keywords hblank⟩

def wordSearch : Context where
  settings := { Settings.default with searchDriver := .like }
  allow := { AllowLists.default with searchable := ["title", "body"] }
  schema := .empty
  entity := .ofTable "posts" "posts"
  filters := .default

/-- A term with a wildcard, blanks on both sides and blanks that are not spaces. -/
theorem search_finds_words_of_discount :
    wordSearch.settings.searchDriver = .like ∧
      wordSearch.param? (.ofPairs [("q", " 100%\u2003rust ")]) ["search", "q"] =
        some " 100%\u2003rust " ∧
      wordSearch.allow.searchable ≠ [] ∧
      ∃ clause, read wordSearch (.ofPairs [("q", " 100%\u2003rust ")]) empty = .accept clause ∧
        ∀ plan : Plan, ∃ added, clause.apply plan = plan.addPredicate added ∧
          added.FindsWords plan.table ["title", "body"] " 100%\u2003rust " := by
  have hterm : wordSearch.param? (.ofPairs [("q", " 100%\u2003rust ")]) ["search", "q"] =
      some " 100%\u2003rust " := by decide
  have hcolumns : wordSearch.allow.searchable ≠ [] := List.cons_ne_nil _ _
  exact ⟨rfl, hterm, hcolumns, search_finds_words rfl hterm hcolumns empty⟩

end SearchClause

end RestQuery
