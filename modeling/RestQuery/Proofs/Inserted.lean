import RestQuery.Proofs.Parameters

/-!
# Pairs inserted one after another

Pairs come into the parameters one after another, all at once or by later insertions. Each key is
then there once, in the order in which the keys were first given, with the value that was given
last. Nothing else can be left of the pairs. A key that is given again moves no key and changes the
value of no other.
-/

namespace RestQuery.Parameters

def keys (ps : Parameters) : List String := ps.pairs.map Prod.fst

def insertAll (ps : Parameters) (calls : List (String × String)) : Parameters :=
  calls.foldl (fun ps call => ps.insert call.1 call.2) ps

/-- The place at which a key is first given. -/
def firstPlace (given : List (String × String)) (key : String) : Nat :=
  (given.map Prod.fst).idxOf key

/-- The value of the last pair with the key. -/
def lastValue (given : List (String × String)) (key : String) : Option String :=
  (given.filter fun pair => pair.1 = key).getLast?.map Prod.snd

/-- What is left of pairs that were given one after another. -/
structure Keeps (ps : Parameters) (given : List (String × String)) : Prop where
  distinct : ps.Distinct
  mem_keys_iff : ∀ key, key ∈ ps.keys ↔ key ∈ given.map Prod.fst
  /-- A key stands before those that were first given after it. -/
  inOrder : ps.keys.Pairwise fun key later => firstPlace given key < firstPlace given later
  get?_eq : ∀ key, ps.get? key = lastValue given key

/-! ### Given pairs -/

section

variable {given : List (String × String)} {key other : String} (value : String)

theorem firstPlace_concat_of_mem (h : other ∈ given.map Prod.fst) :
    firstPlace (given ++ [(key, value)]) other = firstPlace given other := by
  rw [firstPlace, List.map_append, List.idxOf_append_of_mem h, firstPlace]

theorem firstPlace_concat_lt (h : other ∈ given.map Prod.fst) (hfresh : key ∉ given.map Prod.fst) :
    firstPlace (given ++ [(key, value)]) other < firstPlace (given ++ [(key, value)]) key := by
  have hother : firstPlace given other < (given.map Prod.fst).length :=
    List.idxOf_lt_length_iff.mpr h
  have hkey : firstPlace (given ++ [(key, value)]) key = (given.map Prod.fst).length := by
    rw [firstPlace, List.map_append, List.idxOf_append_of_notMem hfresh, List.map_singleton,
      List.idxOf_cons_self, Nat.add_zero]
  rwa [firstPlace_concat_of_mem value h, hkey]

@[simp] theorem lastValue_concat_self : lastValue (given ++ [(key, value)]) key = some value := by
  have hlast : [(key, value)].filter (fun pair => pair.1 = key) = [(key, value)] := by simp
  rw [lastValue, List.filter_append, hlast, List.getLast?_concat, Option.map_some]

@[simp] theorem lastValue_concat_of_ne (h : other ≠ key) :
    lastValue (given ++ [(key, value)]) other = lastValue given other := by
  have hnone : [(key, value)].filter (fun pair => pair.1 = other) = [] := by simp [Ne.symm h]
  rw [lastValue, List.filter_append, hnone, List.append_nil, lastValue]

end

/-! ### Keys and their pairs -/

variable {ps : Parameters} {key : String}

theorem contains_iff : ps.contains key = true ↔ ∃ value, ps.get? key = some value :=
  Option.isSome_iff_exists

theorem mem_keys_iff_contains : key ∈ ps.keys ↔ ps.contains key = true := by
  rw [contains, get?, List.lookup_isSome_iff, keys, List.mem_map]
  simp only [beq_iff_eq, @eq_comm _ key]

theorem Distinct.mem_pairs_iff (h : ps.Distinct) {value : String} :
    (key, value) ∈ ps.pairs ↔ ps.get? key = some value := by
  rw [get?, List.lookup_eq_some_iff]
  constructor
  · intro hmem
    obtain ⟨before, after, hpairs⟩ := List.append_of_mem hmem
    refine ⟨before, after, hpairs, fun pair hpair => ?_⟩
    -- a pair of the same key further ahead would be the second one
    rw [Distinct, hpairs, List.map_append, List.nodup_append] at h
    exact bne_iff_ne.mpr (h.2.2 pair.1 (List.mem_map_of_mem hpair) key (by simp)).symm
  · rintro ⟨before, after, hpairs, -⟩
    rw [hpairs]
    exact List.mem_append_right before List.mem_cons_self

theorem keys_insert_of_contains (h : ps.contains key = true) (value : String) :
    (ps.insert key value).keys = ps.keys :=
  (keys_insertPair value).trans (if_pos (mem_keys_iff_contains.mpr h))

theorem keys_insert_of_fresh (h : key ∉ ps.keys) (value : String) :
    (ps.insert key value).keys = ps.keys ++ [key] :=
  (keys_insertPair value).trans (if_neg h)

theorem mem_keys_insert {other : String} (value : String) :
    other ∈ (ps.insert key value).keys ↔ other ∈ ps.keys ∨ other = key := by
  by_cases hmem : key ∈ ps.keys
  · rw [keys_insert_of_contains (mem_keys_iff_contains.mp hmem),
      or_iff_left_of_imp fun heq => heq ▸ hmem]
  · rw [keys_insert_of_fresh hmem, List.mem_append, List.mem_singleton]

/-! ### What is kept -/

variable {given : List (String × String)}

theorem keeps_empty : empty.Keeps [] where
  distinct := List.nodup_nil
  mem_keys_iff _ := Iff.rfl
  inOrder := List.Pairwise.nil
  get?_eq _ := rfl

theorem Keeps.inOrder_insert (h : ps.Keeps given) (key value : String) :
    (ps.insert key value).keys.Pairwise fun key' later =>
      firstPlace (given ++ [(key, value)]) key' < firstPlace (given ++ [(key, value)]) later := by
  have hbefore : ps.keys.Pairwise fun key' later =>
      firstPlace (given ++ [(key, value)]) key' < firstPlace (given ++ [(key, value)]) later := by
    refine h.inOrder.imp_of_mem fun hmem hlater hlt => ?_
    rwa [firstPlace_concat_of_mem value ((h.mem_keys_iff _).mp hmem),
      firstPlace_concat_of_mem value ((h.mem_keys_iff _).mp hlater)]
  by_cases hmem : key ∈ ps.keys
  · rwa [keys_insert_of_contains (mem_keys_iff_contains.mp hmem)]
  · -- a new key comes last, and no key of the others was given behind it
    rw [keys_insert_of_fresh hmem, List.pairwise_append]
    refine ⟨hbefore, List.pairwise_singleton .., fun other hother last hlast => ?_⟩
    rw [List.mem_singleton.mp hlast]
    exact firstPlace_concat_lt value ((h.mem_keys_iff other).mp hother)
      fun hgiven => hmem ((h.mem_keys_iff key).mpr hgiven)

theorem Keeps.insert (h : ps.Keeps given) (key value : String) :
    (ps.insert key value).Keeps (given ++ [(key, value)]) where
  distinct := h.distinct.insert key value
  mem_keys_iff other := by
    rw [mem_keys_insert, h.mem_keys_iff, List.map_append, List.mem_append, List.map_singleton,
      List.mem_singleton]
  inOrder := h.inOrder_insert key value
  get?_eq other := by
    by_cases hother : other = key
    · simp [hother]
    · simp [hother, h.get?_eq]

theorem Keeps.insertAll (h : ps.Keeps given) (calls : List (String × String)) :
    (ps.insertAll calls).Keeps (given ++ calls) := by
  induction calls generalizing ps given with
  | nil => rwa [List.append_nil]
  | cons call calls ih =>
    rw [List.append_cons]
    exact ih (h.insert call.1 call.2)

/-- Two parameters that keep the same pairs show them in the same order. -/
theorem Keeps.unique {ps' : Parameters} (h : ps.Keeps given) (h' : ps'.Keeps given) : ps' = ps := by
  have hmem : ∀ pair, pair ∈ ps'.pairs ↔ pair ∈ ps.pairs := by
    rintro ⟨key, value⟩
    rw [h'.distinct.mem_pairs_iff, h.distinct.mem_pairs_iff, h'.get?_eq, h.get?_eq]
  have hperm : ps'.pairs.Perm ps.pairs :=
    (List.perm_ext_iff_of_nodup (h'.distinct.of_map _) (h.distinct.of_map _)).mpr hmem
  have hinOrder := List.pairwise_map.mp h.inOrder
  have hinOrder' := List.pairwise_map.mp h'.inOrder
  exact congrArg Parameters.mk (hperm.eq_of_pairwise
    (fun _ _ _ _ hlt hgt => absurd hgt (Nat.lt_asymm hlt)) hinOrder' hinOrder)

/-- Whatever pairs are inserted, each key has its last value, at the place that it first had. This
determines the parameters, which list what a lookup finds. To insert a key that is there leaves
every key in its place and all other values as they are. -/
theorem last_value_in_first_place {pairs calls : List (String × String)}
    (h : ps = (ofPairs pairs).insertAll calls) :
    ps.Keeps (pairs ++ calls) ∧
    (∀ ps' : Parameters, ps'.Keeps (pairs ++ calls) → ps' = ps) ∧
    (∀ key value, (key, value) ∈ ps.pairs ↔ ps.get? key = some value) ∧
    (∀ key, ps.contains key = true ↔ ∃ value, ps.get? key = some value) ∧
    ∀ key value, ps.contains key = true →
      (ps.insert key value).keys = ps.keys ∧
      (ps.insert key value).get? key = some value ∧
      ∀ other, other ≠ key → (ps.insert key value).get? other = ps.get? other := by
  have hpairs : (ofPairs pairs).Keeps pairs := keeps_empty.insertAll pairs
  have hkeeps : ps.Keeps (pairs ++ calls) := h ▸ hpairs.insertAll calls
  refine ⟨hkeeps, fun ps' h' => hkeeps.unique h', fun _ _ => hkeeps.distinct.mem_pairs_iff,
    fun _ => contains_iff, fun key value hcontains => ?_⟩
  exact ⟨keys_insert_of_contains hcontains value, get?_insert_self ps key value,
    fun _ hother => get?_insert_of_ne ps hother value⟩

theorem last_value_in_first_place_of_repeated :
    (⟨[("b", "3"), ("a", "2")]⟩ : Parameters) =
      (ofPairs [("b", "1"), ("a", "2")]).insertAll [("b", "3")] ∧
    Keeps ⟨[("b", "3"), ("a", "2")]⟩ [("b", "1"), ("a", "2"), ("b", "3")] ∧
    (insert ⟨[("b", "3"), ("a", "2")]⟩ "b" "4").keys = ["b", "a"] ∧
    (insert ⟨[("b", "3"), ("a", "2")]⟩ "b" "4").get? "a" = some "2" := by
  have hinserted : (⟨[("b", "3"), ("a", "2")]⟩ : Parameters) =
      (ofPairs [("b", "1"), ("a", "2")]).insertAll [("b", "3")] := by decide
  obtain ⟨hkeeps, -, -, -, hinsert⟩ := last_value_in_first_place hinserted
  obtain ⟨hkeys, -, hothers⟩ := hinsert "b" "4" (by decide)
  exact ⟨hinserted, hkeeps, hkeys, hothers "a" (by decide)⟩

end RestQuery.Parameters
