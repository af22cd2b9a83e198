import Mathlib.Data.List.Basic
import RestQuery.Filter
import RestQuery.Proofs.Dict

/-!
# The suffix of a filter path

A path may be a column with a hyphen and a registered suffix behind it. It is cut before the longest
suffix for which this is so. Two suffixes of one length cannot both end a path, so the cut depends
on the set of the registered suffixes alone: not on the order in which they were registered, nor on
the order in which they are tried.
-/

namespace RestQuery

namespace Registry

variable {registry : Registry} {path column column' suffix suffix' : String}

/-- A path is a column with a hyphen and a registered suffix behind it. -/
structure Cut (registry : Registry) (path column suffix : String) : Prop where
  registered : suffix ∈ registry.strategies.keys
  suffix_ne : suffix ≠ ""
  column_ne : column ≠ ""
  path_eq : path = column ++ "-" ++ suffix

/-- A cut before a suffix that is longer than all others before which the path could be cut. -/
structure LongestCut (registry : Registry) (path column suffix : String) : Prop extends
    Cut registry path column suffix where
  longest : ∀ column' suffix', registry.Cut path column' suffix' → suffix' ≠ suffix →
    suffix'.length < suffix.length ∧ suffix'.utf8ByteSize < suffix.utf8ByteSize

theorem columnBefore_eq_some_iff :
    columnBefore path suffix = some column ↔
      suffix ≠ "" ∧ column ≠ "" ∧ path = column ++ "-" ++ suffix := by
  have hstrip : ∀ front, (Text.stripEnding suffix path).bind (Text.stripEnding "-") = some front ↔
      path = front ++ "-" ++ suffix := by
    intro front
    simp [Option.bind_eq_some_iff, Text.stripEnding_eq_some_iff]
  unfold columnBefore
  split
  · next hempty => simp [hempty]
  · next hsuffix =>
    rw [and_iff_right hsuffix]
    split
    · next front hfront =>
      have hpath := (hstrip front).mp hfront
      rw [Option.ite_none_left_eq_some, Option.some_inj]
      constructor
      · rintro ⟨hfront, rfl⟩
        exact ⟨hfront, hpath⟩
      · rintro ⟨hcolumn, hcut⟩
        obtain rfl : front = column := by simpa using hpath.symm.trans hcut
        exact ⟨hcolumn, rfl⟩
    · next hnone =>
      simp only [reduceCtorEq, false_iff, not_and]
      intro _ hpath
      rw [(hstrip column).mpr hpath] at hnone
      cases hnone

theorem cut_iff : registry.Cut path column suffix ↔
    suffix ∈ registry.strategies.keys ∧ columnBefore path suffix = some column := by
  rw [columnBefore_eq_some_iff]
  exact ⟨fun h => ⟨h.registered, h.suffix_ne, h.column_ne, h.path_eq⟩,
    fun ⟨hregistered, hsuffix, hcolumn, hpath⟩ => ⟨hregistered, hsuffix, hcolumn, hpath⟩⟩

/-! ### Two cuts of one path -/

/-- Of two suffixes of one path that differ, one is the end of the other. -/
theorem Cut.eq_or_exists_append (h : registry.Cut path column suffix)
    (h' : registry.Cut path column' suffix') :
    suffix' = suffix ∨ ∃ front ≠ "", suffix = front ++ suffix' ∨ suffix' = front ++ suffix := by
  have hends : ∀ {column suffix}, registry.Cut path column suffix →
      suffix.toList <:+ path.toList := fun h => by
    rw [h.path_eq, String.toList_append]
    exact List.suffix_append _ _
  have hend : ∀ {s t : String}, s.toList <:+ t.toList → ∃ front, t = front ++ s := by
    rintro s t ⟨front, hfront⟩
    exact ⟨String.ofList front, by rw [← String.toList_inj, ← hfront]; simp⟩
  have hfront : ∃ front, suffix = front ++ suffix' ∨ suffix' = front ++ suffix := by
    rcases List.suffix_or_suffix_of_suffix (hends h') (hends h) with hlong | hlong
    · obtain ⟨front, hfront⟩ := hend hlong
      exact ⟨front, .inl hfront⟩
    · obtain ⟨front, hfront⟩ := hend hlong
      exact ⟨front, .inr hfront⟩
  obtain ⟨front, hfront⟩ := hfront
  by_cases hempty : front = ""
  · subst hempty
    exact .inl (by simpa [eq_comm] using hfront)
  · exact .inr ⟨front, hempty, hfront⟩

theorem Cut.longest {measure : String → Nat}
    (hmeasure : ∀ s t, measure (s ++ t) = measure s + measure t)
    (hzero : ∀ s, measure s = 0 → s = "") (h : registry.Cut path column suffix)
    (hgreatest : ∀ column' suffix', registry.Cut path column' suffix' →
      measure suffix' ≤ measure suffix) :
    registry.LongestCut path column suffix := by
  refine ⟨h, fun column' suffix' h' hne => ?_⟩
  rcases h.eq_or_exists_append h' with heq | ⟨front, hfront, rfl | rfl⟩
  · exact absurd heq hne
  · have hlength : front.length ≠ 0 := by simpa using hfront
    have hsize : front.utf8ByteSize ≠ 0 := by simpa using hfront
    rw [String.length_append, String.utf8ByteSize_append]
    omega
  · have hle := hgreatest _ _ h'
    rw [hmeasure] at hle
    exact absurd (hzero front (by omega)) hfront

theorem LongestCut.unique (h : registry.LongestCut path column suffix)
    (h' : registry.LongestCut path column' suffix') : column' = column ∧ suffix' = suffix := by
  have hsuffix : suffix' = suffix := by
    by_contra hne
    have hless := (h.longest _ _ h'.toCut hne).1
    have hgreater := (h'.longest _ _ h.toCut (Ne.symm hne)).1
    omega
  subst hsuffix
  have hpath := h'.path_eq.symm.trans h.path_eq
  simp only [String.append_left_inj] at hpath
  exact ⟨hpath, rfl⟩

/-! ### The cut that is made -/

theorem exists_foldl_longer (first : String × String) (cuts : List (String × String)) :
    ∃ best ∈ first :: cuts, cuts.foldl longer (some first) = some best ∧
      ∀ cut ∈ first :: cuts, cut.2.length ≤ best.2.length := by
  induction cuts generalizing first with
  | nil => exact ⟨first, List.mem_cons_self, rfl, by simp⟩
  | cons next cuts ih =>
    by_cases hlt : first.2.length < next.2.length
    · obtain ⟨best, hbest, hfold, hgreatest⟩ := ih next
      have hnext := hgreatest next List.mem_cons_self
      refine ⟨best, List.mem_cons_of_mem _ hbest, ?_,
        List.forall_mem_cons.mpr ⟨by omega, hgreatest⟩⟩
      rw [List.foldl_cons, longer, if_pos hlt, hfold]
    · obtain ⟨best, hbest, hfold, hgreatest⟩ := ih first
      obtain ⟨hfirst, hcuts⟩ := List.forall_mem_cons.mp hgreatest
      refine ⟨best, ?_, ?_, List.forall_mem_cons.mpr
        ⟨hfirst, List.forall_mem_cons.mpr ⟨by omega, hcuts⟩⟩⟩
      · rcases List.mem_cons.mp hbest with rfl | hbest
        · exact List.mem_cons_self
        · exact List.mem_cons_of_mem _ (List.mem_cons_of_mem _ hbest)
      · rw [List.foldl_cons, longer, if_neg hlt, hfold]

theorem splitSuffix_cases (registry : Registry) (path : String) :
    (∃ column suffix, registry.LongestCut path column suffix ∧
        registry.splitSuffix path = (column, suffix)) ∨
      (∀ column suffix, ¬ registry.Cut path column suffix) ∧
        registry.splitSuffix path = (path, "") := by
  have hmem : ∀ column suffix, (column, suffix) ∈ (registry.strategies.keys.filterMap
      fun suffix => (columnBefore path suffix).map fun column => (column, suffix)) ↔
      registry.Cut path column suffix := by
    intro column suffix
    rw [cut_iff, List.mem_filterMap]
    simp only [Option.map_eq_some_iff, Prod.mk.injEq]
    constructor
    · rintro ⟨_, hregistered, _, hcolumn, rfl, rfl⟩
      exact ⟨hregistered, hcolumn⟩
    · rintro ⟨hregistered, hcolumn⟩
      exact ⟨suffix, hregistered, column, hcolumn, rfl, rfl⟩
  unfold splitSuffix
  generalize (registry.strategies.keys.filterMap fun suffix =>
    (columnBefore path suffix).map fun column => (column, suffix)) = cuts at hmem
  dsimp only
  cases cuts with
  | nil =>
    refine .inr ⟨fun column suffix hcut => ?_, rfl⟩
    cases (hmem column suffix).mpr hcut
  | cons first cuts =>
    obtain ⟨⟨column, suffix⟩, hbest, hfold, hgreatest⟩ := exists_foldl_longer first cuts
    have hcut := (hmem column suffix).mp hbest
    refine .inl ⟨column, suffix, hcut.longest String.length_append (by simp) ?_, ?_⟩
    · exact fun column' suffix' h' => hgreatest _ ((hmem column' suffix').mpr h')
    · rw [List.foldl_cons, longer, hfold, Option.getD_some]

theorem LongestCut.splitSuffix_eq (h : registry.LongestCut path column suffix) :
    registry.splitSuffix path = (column, suffix) := by
  rcases registry.splitSuffix_cases path with ⟨column', suffix', h', hsplit⟩ | ⟨hnone, -⟩
  · obtain ⟨rfl, rfl⟩ := h.unique h'
    exact hsplit
  · exact absurd h.toCut (hnone _ _)

theorem splitSuffix_of_no_cut (h : ∀ column suffix, ¬ registry.Cut path column suffix) :
    registry.splitSuffix path = (path, "") := by
  rcases registry.splitSuffix_cases path with ⟨column, suffix, hcut, -⟩ | ⟨-, hsplit⟩
  · exact absurd hcut.toCut (h _ _)
  · exact hsplit

theorem splitSuffix_recovers (registry : Registry) (path : String) :
    path = if (registry.splitSuffix path).2 = "" then (registry.splitSuffix path).1
      else (registry.splitSuffix path).1 ++ "-" ++ (registry.splitSuffix path).2 := by
  rcases registry.splitSuffix_cases path with ⟨column, suffix, hcut, hsplit⟩ | ⟨-, hsplit⟩
  · rw [hsplit, if_neg hcut.suffix_ne]
    exact hcut.path_eq
  · rw [hsplit, if_pos rfl]

/-! ### The order of the suffixes -/

/-- Longer suffixes before shorter ones; suffixes with as many octets stay in the given order. -/
def longestFirst (order : List String) : List String :=
  (order.filter (· ≠ "")).mergeSort fun s t => t.utf8ByteSize ≤ s.utf8ByteSize

def firstCut (order : List String) (path : String) : Option (String × String) :=
  order.findSome? fun suffix => (columnBefore path suffix).map fun column => (column, suffix)

@[simp] theorem mem_longestFirst {order : List String} :
    suffix ∈ longestFirst order ↔ suffix ∈ order ∧ suffix ≠ "" := by
  simp [longestFirst]

theorem pairwise_longestFirst (order : List String) :
    (longestFirst order).Pairwise fun s t => t.utf8ByteSize ≤ s.utf8ByteSize := by
  have hsorted : (longestFirst order).Pairwise fun s t =>
      decide (t.utf8ByteSize ≤ s.utf8ByteSize) = true := by
    apply List.pairwise_mergeSort
    · intro s t u hst htu
      simp only [decide_eq_true_eq] at hst htu ⊢
      omega
    · intro s t
      simp only [Bool.or_eq_true, decide_eq_true_eq]
      omega
  exact hsorted.imp fun h => of_decide_eq_true h

/-- In whatever order the registered suffixes come, trying the longest first makes the same cut. -/
theorem firstCut_longestFirst {order : List String}
    (horder : ∀ suffix, suffix ∈ order ↔ suffix ∈ registry.strategies.keys) (path : String) :
    (firstCut (longestFirst order) path).getD (path, "") = registry.splitSuffix path := by
  have hmem : ∀ {column suffix}, registry.Cut path column suffix → suffix ∈ longestFirst order :=
    fun h => mem_longestFirst.mpr ⟨(horder _).mpr h.registered, h.suffix_ne⟩
  cases hfind : firstCut (longestFirst order) path with
  | none =>
    rw [firstCut, List.findSome?_eq_none_iff] at hfind
    refine (splitSuffix_of_no_cut fun column suffix h => ?_).symm
    have hnone := hfind suffix (hmem h)
    rw [(cut_iff.mp h).2] at hnone
    cases hnone
  | some cut =>
    obtain ⟨before, suffix, after, htried, hcut, hbefore⟩ := List.findSome?_eq_some_iff.mp hfind
    obtain ⟨column, hcolumn, rfl⟩ := Option.map_eq_some_iff.mp hcut
    have hsuffix : suffix ∈ longestFirst order := by
      rw [htried]
      exact List.mem_append_right _ List.mem_cons_self
    have h : registry.Cut path column suffix :=
      cut_iff.mpr ⟨(horder suffix).mp (mem_longestFirst.mp hsuffix).1, hcolumn⟩
    have hsorted := pairwise_longestFirst order
    rw [htried, List.pairwise_append, List.pairwise_cons] at hsorted
    refine (LongestCut.splitSuffix_eq (h.longest (fun _ _ => String.utf8ByteSize_append)
      (fun _ => String.utf8ByteSize_eq_zero_iff.mp) fun column' suffix' h' => ?_)).symm
    -- a suffix that fits was not tried before this one, and what comes after it is not longer
    have hmem' := hmem h'
    rw [htried, List.mem_append, List.mem_cons] at hmem'
    rcases hmem' with hmem' | rfl | hmem'
    · have hnone := hbefore suffix' hmem'
      rw [(cut_iff.mp h').2] at hnone
      cases hnone
    · exact le_rfl
    · exact hsorted.2.1.1 suffix' hmem'

theorem splitSuffix_congr {registry' : Registry}
    (h : ∀ suffix, suffix ∈ registry'.strategies.keys ↔ suffix ∈ registry.strategies.keys)
    (path : String) : registry'.splitSuffix path = registry.splitSuffix path := by
  rw [← firstCut_longestFirst h path, ← firstCut_longestFirst (fun _ => Iff.rfl) path]

def registerAll (registry : Registry) (more : List (String × Strategy)) : Registry :=
  more.foldl (fun registry (suffix, strategy) => registry.register suffix strategy) registry

theorem mem_keys_registerAll {more : List (String × Strategy)} :
    suffix ∈ (registry.registerAll more).strategies.keys ↔
      suffix ∈ registry.strategies.keys ∨ suffix ∈ more.map Prod.fst := by
  induction more generalizing registry with
  | nil => simp [registerAll]
  | cons first more ih =>
    change suffix ∈ ((registry.register first.1 first.2).registerAll more).strategies.keys ↔ _
    rw [ih, register, Dict.mem_keys_insert, List.map_cons, List.mem_cons]
    tauto

/-- A path is cut before its longest registered suffix and can be put together again. The cut
depends on nothing but the set of the registered suffixes. -/
theorem splitSuffix_exact (registry : Registry) (path : String) :
    ((∃ column suffix, registry.LongestCut path column suffix ∧
          registry.splitSuffix path = (column, suffix)) ∨
        (∀ column suffix, ¬ registry.Cut path column suffix) ∧
          registry.splitSuffix path = (path, "")) ∧
      (path = if (registry.splitSuffix path).2 = "" then (registry.splitSuffix path).1
        else (registry.splitSuffix path).1 ++ "-" ++ (registry.splitSuffix path).2) ∧
      (∀ order, (∀ suffix, suffix ∈ order ↔ suffix ∈ registry.strategies.keys) →
        (firstCut (longestFirst order) path).getD (path, "") = registry.splitSuffix path) ∧
      (∀ registry' : Registry,
        (∀ suffix, suffix ∈ registry'.strategies.keys ↔ suffix ∈ registry.strategies.keys) →
        registry'.splitSuffix path = registry.splitSuffix path) ∧
      ∀ more more' : List (String × Strategy),
        (∀ suffix, suffix ∈ more.map Prod.fst ↔ suffix ∈ more'.map Prod.fst) →
        (registry.registerAll more).splitSuffix path =
          (registry.registerAll more').splitSuffix path := by
  refine ⟨registry.splitSuffix_cases path, registry.splitSuffix_recovers path,
    fun order horder => firstCut_longestFirst horder path,
    fun registry' h => splitSuffix_congr h path, fun more more' h => ?_⟩
  refine splitSuffix_congr (fun suffix => ?_) path
  rw [mem_keys_registerAll, mem_keys_registerAll, h]

/-- A path that ends in two registered suffixes is cut before the longer one, also if they are tried
in reverse, if a strategy is replaced, and in whatever order two more are registered. -/
theorem splitSuffix_exact_of_title :
    default.splitSuffix "title-not-lk" = ("title", "not-lk") ∧
      default.LongestCut "title-not-lk" "title" "not-lk" ∧
      (firstCut (longestFirst default.strategies.keys.reverse) "title-not-lk").getD
        ("title-not-lk", "") = ("title", "not-lk") ∧
      (default.register "lk" .equal).splitSuffix "title-not-lk" = ("title", "not-lk") ∧
      (default.registerAll [("k", .equal), ("t-lk", .notEqual)]).splitSuffix "title-not-lk" =
        (default.registerAll [("t-lk", .equal), ("k", .equal)]).splitSuffix "title-not-lk" := by
  have hsplit : default.splitSuffix "title-not-lk" = ("title", "not-lk") := by decide
  obtain ⟨hcases, -, horder, hset, hmore⟩ := splitSuffix_exact default "title-not-lk"
  rw [hsplit] at hcases horder hset
  refine ⟨hsplit, ?_, horder _ fun suffix => List.mem_reverse, hset _ fun suffix => ?_,
    hmore _ _ fun suffix => ?_⟩
  · rcases hcases with ⟨column, suffix, hcut, heq⟩ | ⟨-, heq⟩
    · rw [Prod.mk.injEq] at heq
      obtain ⟨rfl, rfl⟩ := heq
      exact hcut
    · simp at heq
  · have hregistered : "lk" ∈ default.strategies.keys := by decide
    rw [register, Dict.mem_keys_insert, or_iff_right_of_imp (fun h => h ▸ hregistered)]
  · simp [or_comm]

end Registry

end RestQuery
