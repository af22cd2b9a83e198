import Mathlib.Data.String.Basic
import RestQuery.Dict

/-!
# Laws of dictionaries

`insert` and `update` change one key and add at most that key. A dictionary built by them has its
keys in strictly increasing order, so no key stands twice in it.
-/

namespace RestQuery.Dict

variable {α : Type}

theorem get?_eq_none_iff {d : Dict α} {key : String} : get? d key = none ↔ key ∉ keys d := by
  induction d with
  | nil => simp [get?, keys]
  | cons entry rest ih =>
    obtain ⟨k, v⟩ := entry
    by_cases hk : k = key
    · simp [get?, keys, hk]
    · have hk' : ¬ key = k := fun e => hk e.symm
      simpa [get?, keys, hk, hk'] using ih

theorem mem_keys_iff {d : Dict α} {key : String} :
    key ∈ keys d ↔ ∃ value, get? d key = some value := by
  rw [← Option.ne_none_iff_exists', ne_eq, get?_eq_none_iff, not_not]

@[simp] theorem mem_keys_insert {d : Dict α} {key other : String} {value : α} :
    other ∈ keys (insert d key value) ↔ other = key ∨ other ∈ keys d := by
  by_cases h : other = key
  · simp [h, mem_keys_iff]
  · simp [h, mem_keys_iff]

/-- The last of two insertions at one key counts. -/
@[simp] theorem insert_insert_self (d : Dict α) (key : String) (value value' : α) :
    insert (insert d key value) key value' = insert d key value' := by
  induction d with
  | nil => simp [insert]
  | cons entry rest ih =>
    obtain ⟨k, v⟩ := entry
    by_cases hk : k = key
    · simp [insert, hk]
    · by_cases hlt : key < k
      · simp [insert, hk, hlt]
      · simp [insert, hk, hlt, ih]

@[simp] theorem get?_update_self (d : Dict α) (key : String) (fallback : α) (f : α → α) :
    get? (update d key fallback f) key = some (f ((get? d key).getD fallback)) :=
  get?_insert_self d key _

@[simp] theorem get?_update_of_ne (d : Dict α) {key other : String} (fallback : α) (f : α → α)
    (h : other ≠ key) : get? (update d key fallback f) other = get? d other :=
  get?_insert_of_ne d _ h

@[simp] theorem mem_keys_update {d : Dict α} {key other : String} {fallback : α} {f : α → α} :
    other ∈ keys (update d key fallback f) ↔ other = key ∨ other ∈ keys d := mem_keys_insert

/-! ### Order of the keys -/

/-- The keys stand in strictly increasing order. -/
def Ordered (d : Dict α) : Prop := (keys d).Pairwise (· < ·)

theorem ordered_nil : Ordered ([] : Dict α) := List.Pairwise.nil

theorem ordered_insert {d : Dict α} (h : Ordered d) (key : String) (value : α) :
    Ordered (insert d key value) := by
  induction d with
  | nil => simp [Ordered, insert, keys]
  | cons entry rest ih =>
    obtain ⟨k, v⟩ := entry
    obtain ⟨hk, hrest⟩ := List.pairwise_cons.mp h
    unfold insert
    split
    · next heq =>
      subst heq
      exact List.pairwise_cons.mpr ⟨hk, hrest⟩
    · next hne =>
      split
      · next hlt =>
        refine List.pairwise_cons.mpr ⟨?_, h⟩
        intro other hother
        rcases List.mem_cons.mp hother with rfl | hother
        · exact hlt
        · exact hlt.trans (hk other hother)
      · next hge =>
        refine List.pairwise_cons.mpr ⟨?_, ih hrest⟩
        intro other hother
        rcases mem_keys_insert.mp hother with rfl | hother
        · exact lt_of_le_of_ne (not_lt.mp hge) hne
        · exact hk other hother

theorem ordered_foldl_insert {d : Dict α} (h : Ordered d) (pairs : List (String × α)) :
    Ordered (pairs.foldl (fun d (key, value) => insert d key value) d) := by
  induction pairs generalizing d with
  | nil => exact h
  | cons pair pairs ih => exact ih (ordered_insert h pair.1 pair.2)

theorem ordered_ofList (pairs : List (String × α)) : Ordered (ofList pairs) :=
  ordered_foldl_insert ordered_nil pairs

theorem Ordered.nodup_keys {d : Dict α} (h : Ordered d) : (keys d).Nodup :=
  h.imp fun hlt => ne_of_lt hlt

theorem mem_keys_foldl_insert {d : Dict α} {pairs : List (String × α)} {key : String} :
    key ∈ keys (pairs.foldl (fun d (key, value) => insert d key value) d) ↔
      key ∈ keys d ∨ key ∈ pairs.map Prod.fst := by
  induction pairs generalizing d with
  | nil => simp
  | cons pair pairs ih =>
    rw [List.foldl_cons, ih, mem_keys_insert, List.map_cons, List.mem_cons]
    tauto

@[simp] theorem mem_keys_ofList {pairs : List (String × α)} {key : String} :
    key ∈ keys (ofList pairs) ↔ key ∈ pairs.map Prod.fst := by
  rw [ofList, mem_keys_foldl_insert]
  simp [keys]

theorem mem_of_get? {d : Dict α} {key : String} {value : α} (h : get? d key = some value) :
    (key, value) ∈ d := by
  induction d with
  | nil => cases h
  | cons entry rest ih =>
    obtain ⟨k, v⟩ := entry
    unfold get? at h
    split at h
    · next hk =>
      obtain rfl := Option.some.inj h
      exact hk ▸ List.mem_cons_self ..
    · exact List.mem_cons_of_mem _ (ih h)

theorem mem_of_get?_foldl_insert {d : Dict α} {pairs : List (String × α)} {key : String} {value : α}
    (h : get? (pairs.foldl (fun d (key, value) => insert d key value) d) key = some value) :
    get? d key = some value ∨ (key, value) ∈ pairs := by
  induction pairs generalizing d with
  | nil => exact Or.inl h
  | cons pair pairs ih =>
    obtain ⟨k, v⟩ := pair
    rcases ih h with hfirst | hrest
    · by_cases hk : key = k
      · subst hk
        simp at hfirst
        simp [hfirst]
      · simp [hk] at hfirst
        exact Or.inl hfirst
    · exact Or.inr (List.mem_cons_of_mem _ hrest)

theorem mem_of_get?_ofList {pairs : List (String × α)} {key : String} {value : α}
    (h : get? (ofList pairs) key = some value) : (key, value) ∈ pairs := by
  rcases mem_of_get?_foldl_insert h with hnil | hmem
  · cases hnil
  · exact hmem

/-! ### Keys that differ -/

/-- A new key is put among the others, which stay as they are. -/
theorem perm_insert {d : Dict α} {key : String} (h : key ∉ keys d) (value : α) :
    (insert d key value).Perm ((key, value) :: d) := by
  induction d with
  | nil => exact List.Perm.refl _
  | cons entry rest ih =>
    obtain ⟨k, v⟩ := entry
    rw [keys, List.map_cons, List.mem_cons, not_or] at h
    unfold insert
    rw [if_neg (Ne.symm h.1)]
    split
    · exact List.Perm.refl _
    · exact ((ih h.2).cons (k, v)).trans (List.Perm.swap (key, value) (k, v) rest)

theorem perm_foldl_insert {d : Dict α} {pairs : List (String × α)}
    (h : (keys d ++ pairs.map Prod.fst).Nodup) :
    (pairs.foldl (fun d (key, value) => insert d key value) d).Perm (d ++ pairs) := by
  induction pairs generalizing d with
  | nil => exact (List.append_nil d).symm ▸ List.Perm.refl d
  | cons pair pairs ih =>
    have hswap : (keys d ++ pair.1 :: pairs.map Prod.fst).Perm
        (pair.1 :: (keys d ++ pairs.map Prod.fst)) := List.perm_middle
    have hall : (pair.1 :: (keys d ++ pairs.map Prod.fst)).Nodup := hswap.nodup_iff.mp h
    have hfresh : pair.1 ∉ keys d := fun hmem =>
      (List.nodup_cons.mp hall).1 (List.mem_append_left _ hmem)
    have hinsert := perm_insert hfresh pair.2
    have hkeys : (keys (insert d pair.1 pair.2) ++ pairs.map Prod.fst).Perm
        (pair.1 :: (keys d ++ pairs.map Prod.fst)) :=
      (hinsert.map Prod.fst).append_right (pairs.map Prod.fst)
    exact ((ih (hkeys.nodup_iff.mpr hall)).trans (hinsert.append_right pairs)).trans
      List.perm_middle.symm

/-- Of pairs whose keys differ none is replaced. -/
theorem perm_ofList {pairs : List (String × α)} (h : (pairs.map Prod.fst).Nodup) :
    (ofList pairs).Perm pairs := perm_foldl_insert h

end RestQuery.Dict
