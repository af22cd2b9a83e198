import Mathlib.Data.List.Induction
import Mathlib.Data.List.Nodup
import RestQuery.Parameters
import RestQuery.Proofs.Text.Urlencoded

/-!
# Parameters by key

Parameters are built by `insert`, so no key stands twice. This is what makes the query that they are
written as read back the same: inserted one after another, distinct keys come to stand in their
order, each with its own value.
-/

namespace RestQuery.Parameters

def without (ps : Parameters) (excluded : List String) : Parameters :=
  ⟨ps.pairs.filter fun pair => !excluded.contains pair.1⟩

def Distinct (ps : Parameters) : Prop := (ps.pairs.map Prod.fst).Nodup

/-! ### Lookups -/

/-- A key that is kept has the same value among the kept parameters. -/
theorem lookup_filter {p : String → Bool} {key : String} (h : p key = true)
    (pairs : List (String × String)) :
    (pairs.filter fun pair => p pair.1).lookup key = pairs.lookup key := by
  induction pairs with
  | nil => rfl
  | cons pair pairs ih =>
    obtain ⟨k, value⟩ := pair
    by_cases hk : key = k
    · subst hk
      simp only [List.filter_cons, h, if_true, List.lookup_cons_self]
    · have hne : (key == k) = false := beq_false_of_ne hk
      rw [List.lookup_cons, hne, ← ih, List.filter_cons]
      split
      · rw [List.lookup_cons, hne]
      · rfl

theorem lookup_map (g : String → String → String) (key : String)
    (pairs : List (String × String)) :
    (pairs.map fun pair => (pair.1, g pair.1 pair.2)).lookup key =
      (pairs.lookup key).map (g key) := by
  induction pairs with
  | nil => rfl
  | cons pair pairs ih =>
    obtain ⟨k, value⟩ := pair
    by_cases hk : key = k
    · subst hk
      simp only [List.map_cons, List.lookup_cons_self, Option.map_some]
    · have hne : (key == k) = false := beq_false_of_ne hk
      simp only [List.map_cons, List.lookup_cons, hne, ih]

theorem get?_without {ps : Parameters} {excluded : List String} {key : String}
    (h : key ∉ excluded) : (ps.without excluded).get? key = ps.get? key := by
  have hkept : (!excluded.contains key) = true := by simpa using h
  exact lookup_filter (p := fun key => !excluded.contains key) hkept ps.pairs

/-! ### Insertion -/

section

variable {pairs : List (String × String)} {key : String} (value : String)

theorem lookup_insertPair_self : (insertPair pairs key value).lookup key = some value := by
  induction pairs with
  | nil => exact List.lookup_cons_self
  | cons pair pairs ih =>
    obtain ⟨k, v⟩ := pair
    rw [insertPair]
    split
    · next hk =>
      subst hk
      exact List.lookup_cons_self
    · next hk =>
      have hne : (key == k) = false := beq_false_of_ne (Ne.symm hk)
      rw [List.lookup_cons, hne]
      exact ih

theorem insertPair_fresh (h : key ∉ pairs.map Prod.fst) :
    insertPair pairs key value = pairs ++ [(key, value)] := by
  induction pairs with
  | nil => rfl
  | cons pair pairs ih =>
    rw [List.map_cons, List.mem_cons, not_or] at h
    rw [insertPair, if_neg (Ne.symm h.1), ih h.2, List.cons_append]

/-- A key that is there keeps its place. -/
theorem keys_insertPair :
    (insertPair pairs key value).map Prod.fst =
      if key ∈ pairs.map Prod.fst then pairs.map Prod.fst else pairs.map Prod.fst ++ [key] := by
  induction pairs with
  | nil => rfl
  | cons pair pairs ih =>
    obtain ⟨k, v⟩ := pair
    rw [insertPair]
    by_cases hk : k = key
    · simp [hk]
    · rw [if_neg hk]
      simp only [List.map_cons, List.mem_cons, Ne.symm hk, false_or, ih]
      split <;> rfl

/-- Only the pair of the key is changed. -/
theorem filter_insertPair {p : String → Bool} (h : p key = false) :
    ((insertPair pairs key value).filter fun pair => p pair.1) =
      pairs.filter fun pair => p pair.1 := by
  induction pairs with
  | nil => simp [insertPair, h]
  | cons pair pairs ih =>
    obtain ⟨k, v⟩ := pair
    rw [insertPair]
    split
    · next hk =>
      subst hk
      simp [h]
    · rw [List.filter_cons, ih, List.filter_cons]

end

@[simp] theorem get?_insert_self (ps : Parameters) (key value : String) :
    (ps.insert key value).get? key = some value := lookup_insertPair_self value

theorem without_insert {ps : Parameters} {excluded : List String} {key : String}
    (h : key ∈ excluded) (value : String) :
    (ps.insert key value).without excluded = ps.without excluded := by
  have hdropped : (!excluded.contains key) = false := by simpa using h
  exact congrArg mk (filter_insertPair (p := fun key => !excluded.contains key) value hdropped)

@[simp]
theorem get?_insert_of_ne (ps : Parameters) {key key' : String} (h : key' ≠ key) (value : String) :
    (ps.insert key value).get? key' = ps.get? key' := by
  have hkept : key' ∉ [key] := by simpa using h
  rw [← get?_without hkept, without_insert (List.mem_singleton_self key), get?_without hkept]

@[simp] theorem without_without (ps : Parameters) (excluded : List String) :
    (ps.without excluded).without excluded = ps.without excluded := by
  simp only [without, List.filter_filter, Bool.and_self]

/-! ### Distinct keys -/

theorem Distinct.insert {ps : Parameters} (h : ps.Distinct) (key value : String) :
    (ps.insert key value).Distinct := by
  rw [Distinct, Parameters.insert, keys_insertPair]
  split
  · exact h
  · next hfresh =>
    rw [← List.concat_eq_append]
    exact h.concat hfresh

theorem ofPairs_append (pairs : List (String × String)) (key value : String) :
    ofPairs (pairs ++ [(key, value)]) = (ofPairs pairs).insert key value := by
  rw [ofPairs, List.foldl_append]
  rfl

theorem distinct_ofPairs (pairs : List (String × String)) : (ofPairs pairs).Distinct := by
  induction pairs using List.reverseRecOn with
  | nil => exact List.nodup_nil
  | append_singleton pairs pair ih =>
    rw [ofPairs_append]
    exact ih.insert pair.1 pair.2

/-- Pairs with distinct keys are the parameters that they are inserted into. -/
theorem ofPairs_eq {pairs : List (String × String)} (h : (pairs.map Prod.fst).Nodup) :
    ofPairs pairs = ⟨pairs⟩ := by
  induction pairs using List.reverseRecOn with
  | nil => rfl
  | append_singleton pairs pair ih =>
    rw [List.map_append, List.map_singleton, List.nodup_append] at h
    obtain ⟨hpairs, -, hapart⟩ := h
    have hfresh : pair.1 ∉ pairs.map Prod.fst := fun hmem =>
      hapart pair.1 hmem pair.1 (List.mem_singleton_self _) rfl
    rw [ofPairs_append, ih hpairs, insert, insertPair_fresh pair.2 hfresh]

theorem Distinct.without {ps : Parameters} (h : ps.Distinct) (excluded : List String) :
    (ps.without excluded).Distinct :=
  (List.Sublist.map Prod.fst List.filter_sublist).nodup h

/-- A query is read back as the parameters that it was written from. -/
theorem Distinct.ofQuery_toQuery {ps : Parameters} (h : ps.Distinct) (excluded : List String) :
    ofQuery (ps.toQuery excluded) = ps.without excluded := by
  rw [ofQuery, toQuery, Urlencoded.decode_encode]
  exact ofPairs_eq (h.without excluded)

end RestQuery.Parameters
