import Mathlib.Logic.Basic
import RestQuery.Plan
import RestQuery.Sql.Statement

/-!
# Texts with dots

A dotted text is cut at every dot into pieces, at its first dot into a table and a column, and at
its last dot into a relation path and a column. A text put together with dots is cut where it was
joined, provided that the part which has to be free of dots is.
-/

namespace RestQuery

namespace Text

/-- A text without dots. -/
def Undotted (s : String) : Prop := '.' ∉ s.toList

instance (s : String) : Decidable (Undotted s) := inferInstanceAs (Decidable ('.' ∉ s.toList))

theorem toList_dotted (a b : String) : (a ++ "." ++ b).toList = a.toList ++ '.' :: b.toList := by
  simp

/-! ### Pieces between separators -/

theorem splitWhere_append_cons (p : Char → Bool) {c : Char} (hc : p c = true) (as bs : List Char) :
    splitWhere p (as ++ c :: bs) = splitWhere p as ++ splitWhere p bs := by
  induction as with
  | nil => simp [splitWhere, hc]
  | cons a as ih =>
    by_cases ha : p a
    · simp [splitWhere, ha, ih]
    · simp only [List.cons_append, splitWhere, ha, Bool.false_eq_true, if_false, ih]
      cases has : splitWhere p as with
      | nil => exact absurd has (splitWhere_ne_nil p as)
      | cons piece pieces => rfl

theorem splitWhere_of_forall_not (p : Char → Bool) {cs : List Char} (h : ∀ c ∈ cs, p c = false) :
    splitWhere p cs = [cs] := by
  induction cs with
  | nil => rfl
  | cons c cs ih =>
    have hc : p c = false := h c (List.mem_cons_self ..)
    have hcs := ih fun d hd => h d (List.mem_cons_of_mem c hd)
    simp [splitWhere, hc, hcs]

/-- Parts that are joined with a separator, which none of them has, are the pieces between it. -/
theorem splitWhere_intercalate {c : Char} {parts : List (List Char)} (hne : parts ≠ [])
    (h : ∀ part ∈ parts, c ∉ part) : splitWhere (· == c) ([c].intercalate parts) = parts := by
  induction parts with
  | nil => exact absurd rfl hne
  | cons first rest ih =>
    have hfirst : splitWhere (· == c) first = [first] := by
      refine splitWhere_of_forall_not _ fun d hd => ?_
      rw [beq_eq_false_iff_ne]
      rintro rfl
      exact h first List.mem_cons_self hd
    cases rest with
    | nil => rw [List.intercalate_singleton, hfirst]
    | cons second rest =>
      have hrest := ih (by simp) fun part hpart => h part (List.mem_cons_of_mem _ hpart)
      rw [List.intercalate_cons_cons, List.append_assoc, List.singleton_append,
        splitWhere_append_cons (· == c) (beq_self_eq_true c), hfirst, hrest]
      rfl

/-- The pieces, joined with the separator again, are the text. -/
theorem intercalate_splitWhere (c : Char) (cs : List Char) :
    [c].intercalate (splitWhere (· == c) cs) = cs := by
  induction cs with
  | nil => rfl
  | cons d cs ih =>
    cases hpieces : splitWhere (· == c) cs with
    | nil => exact absurd hpieces (splitWhere_ne_nil _ cs)
    | cons piece pieces =>
      rw [hpieces] at ih
      by_cases hd : d = c
      · subst hd
        simp [splitWhere, hpieces, ih]
      · have hne : (d == c) = false := beq_false_of_ne hd
        have hcons : [c].intercalate ((d :: piece) :: pieces) =
            d :: [c].intercalate (piece :: pieces) := by
          cases pieces <;> simp
        simp [splitWhere, hne, hpieces, hcons, ih]

theorem not_of_mem_splitWhere (p : Char → Bool) {cs piece : List Char}
    (h : piece ∈ splitWhere p cs) : ∀ c ∈ piece, p c = false := by
  induction cs generalizing piece with
  | nil =>
    obtain rfl : piece = [] := by simpa [splitWhere] using h
    simp
  | cons d cs ih =>
    unfold splitWhere at h
    split at h
    · rcases List.mem_cons.mp h with rfl | h
      · simp
      · exact ih h
    · next hd =>
      split at h
      · obtain rfl : piece = [d] := by simpa using h
        simpa using hd
      · next first rest hcs =>
        rw [hcs] at ih
        rcases List.mem_cons.mp h with rfl | h
        · intro c hc
          rcases List.mem_cons.mp hc with rfl | hc
          · simpa using hd
          · exact ih (List.mem_cons_self ..) c hc
        · exact ih (List.mem_cons_of_mem _ h)

theorem pieces_dotted (a b : String) :
    pieces '.' (a ++ "." ++ b) = pieces '.' a ++ pieces '.' b := by
  unfold pieces
  rw [toList_dotted, splitWhere_append_cons _ (by rfl), List.map_append]

theorem pieces_of_undotted {s : String} (h : Undotted s) : pieces '.' s = [s] := by
  unfold pieces
  rw [splitWhere_of_forall_not]
  · simp
  · intro c hc
    simp only [beq_eq_false_iff_ne]
    rintro rfl
    exact h hc

theorem undotted_of_mem_pieces {s piece : String} (h : piece ∈ pieces '.' s) : Undotted piece := by
  obtain ⟨cs, hcs, rfl⟩ := List.mem_map.mp h
  intro hdot
  have := not_of_mem_splitWhere _ hcs '.' (by simpa using hdot)
  simp at this

theorem pieces_ne_nil (s : String) : pieces '.' s ≠ [] := by
  simp [pieces, splitWhere_ne_nil]

theorem exists_pieces_eq_concat (s : String) : ∃ before last, pieces '.' s = before ++ [last] :=
  ⟨_, _, (List.dropLast_concat_getLast (pieces_ne_nil s)).symm⟩

/-! ### Cuts -/

theorem cutFirstChars_append_cons {c : Char} {as : List Char} (h : c ∉ as) (bs : List Char) :
    cutFirstChars c (as ++ c :: bs) = some (as, bs) := by
  induction as with
  | nil => simp [cutFirstChars]
  | cons a as ih =>
    have ha : a ≠ c := fun e => h (by simp [e])
    have has : c ∉ as := fun e => h (List.mem_cons_of_mem a e)
    simp [cutFirstChars, ha, ih has]

theorem cutFirstChars_eq_none_iff {c : Char} {cs : List Char} :
    cutFirstChars c cs = none ↔ c ∉ cs := by
  induction cs with
  | nil => simp [cutFirstChars]
  | cons d cs ih =>
    by_cases hd : d = c
    · simp [cutFirstChars, hd]
    · have hd' : ¬ c = d := fun e => hd e.symm
      simp [cutFirstChars, hd, hd', ih]

theorem cutLastChars_eq_none_iff {c : Char} {cs : List Char} :
    cutLastChars c cs = none ↔ c ∉ cs := by
  induction cs with
  | nil => simp [cutLastChars]
  | cons d cs ih =>
    by_cases hcs : c ∈ cs
    · obtain ⟨cut, hcut⟩ := Option.ne_none_iff_exists'.mp (mt ih.mp (not_not.mpr hcs))
      simp [cutLastChars, hcut, hcs]
    · rw [cutLastChars, ih.mpr hcs]
      by_cases hd : d = c
      · simp [hd]
      · have hd' : ¬ c = d := fun e => hd e.symm
        simp [hd, hd', hcs]

theorem eq_append_of_cutFirstChars {c : Char} {cs before after : List Char}
    (h : cutFirstChars c cs = some (before, after)) : cs = before ++ c :: after ∧ c ∉ before := by
  induction cs generalizing before with
  | nil => simp [cutFirstChars] at h
  | cons d cs ih =>
    rw [cutFirstChars] at h
    split at h
    · next hd =>
      simp only [Option.some.injEq, Prod.mk.injEq] at h
      obtain ⟨rfl, rfl⟩ := h
      exact ⟨by rw [hd]; rfl, List.not_mem_nil⟩
    · next hd =>
      obtain ⟨⟨first, rest⟩, hcut, hparts⟩ := Option.map_eq_some_iff.mp h
      simp only [Prod.mk.injEq] at hparts
      obtain ⟨rfl, rfl⟩ := hparts
      obtain ⟨rfl, hfirst⟩ := ih hcut
      exact ⟨rfl, by simp [hfirst, Ne.symm hd]⟩

theorem eq_append_of_cutLastChars {c : Char} {cs before after : List Char}
    (h : cutLastChars c cs = some (before, after)) : cs = before ++ c :: after ∧ c ∉ after := by
  induction cs generalizing before with
  | nil => simp [cutLastChars] at h
  | cons d cs ih =>
    rw [cutLastChars] at h
    split at h
    · next b a hcut =>
      simp only [Option.some.injEq, Prod.mk.injEq] at h
      obtain ⟨rfl, rfl⟩ := h
      obtain ⟨rfl, ha⟩ := ih hcut
      exact ⟨rfl, ha⟩
    · next hcut =>
      split at h
      · next hd =>
        simp only [Option.some.injEq, Prod.mk.injEq] at h
        obtain ⟨rfl, rfl⟩ := h
        exact ⟨by rw [hd]; rfl, cutLastChars_eq_none_iff.mp hcut⟩
      · simp at h

theorem cutLastChars_append_cons {c : Char} {bs : List Char} (h : c ∉ bs) (as : List Char) :
    cutLastChars c (as ++ c :: bs) = some (as, bs) := by
  induction as with
  | nil => simp [cutLastChars, cutLastChars_eq_none_iff.mpr h]
  | cons a as ih => simp [cutLastChars, ih]

theorem cutFirst_dotted {a : String} (h : Undotted a) (b : String) :
    cutFirst '.' (a ++ "." ++ b) = some (a, b) := by
  unfold cutFirst
  rw [toList_dotted, cutFirstChars_append_cons h]
  simp

theorem cutFirst_of_undotted {s : String} (h : Undotted s) : cutFirst '.' s = none := by
  simp [cutFirst, cutFirstChars_eq_none_iff.mpr h]

theorem eq_dotted_of_cutFirst {s a b : String} (h : cutFirst '.' s = some (a, b)) :
    s = a ++ "." ++ b ∧ Undotted a := by
  obtain ⟨⟨before, after⟩, hcut, hparts⟩ := Option.map_eq_some_iff.mp h
  simp only [Prod.mk.injEq] at hparts
  obtain ⟨rfl, rfl⟩ := hparts
  obtain ⟨hs, hbefore⟩ := eq_append_of_cutFirstChars hcut
  refine ⟨?_, by simpa [Undotted] using hbefore⟩
  rw [← String.toList_inj, toList_dotted, hs, String.toList_ofList, String.toList_ofList]

theorem undotted_of_cutFirst_eq_none {s : String} (h : cutFirst '.' s = none) : Undotted s := by
  simpa [cutFirst, cutFirstChars_eq_none_iff, Undotted] using h

theorem cutLast_dotted (a : String) {b : String} (h : Undotted b) :
    cutLast '.' (a ++ "." ++ b) = some (a, b) := by
  unfold cutLast
  rw [toList_dotted, cutLastChars_append_cons h]
  simp

theorem cutLast_of_undotted {s : String} (h : Undotted s) : cutLast '.' s = none := by
  simp [cutLast, cutLastChars_eq_none_iff.mpr h]

theorem undotted_of_cutLast_eq_none {s : String} (h : cutLast '.' s = none) : Undotted s := by
  simpa [cutLast, cutLastChars_eq_none_iff, Undotted] using h

theorem eq_dotted_of_cutLast {s a b : String} (h : cutLast '.' s = some (a, b)) :
    s = a ++ "." ++ b ∧ Undotted b := by
  unfold cutLast at h
  cases hcut : cutLastChars '.' s.toList with
  | none => simp [hcut] at h
  | some cut =>
    obtain ⟨before, after⟩ := cut
    simp only [hcut, Option.map_some, Option.some.injEq, Prod.mk.injEq] at h
    obtain ⟨rfl, rfl⟩ := h
    obtain ⟨hs, hafter⟩ := eq_append_of_cutLastChars hcut
    refine ⟨?_, by simpa [Undotted] using hafter⟩
    rw [← String.toList_inj, toList_dotted, hs, String.toList_ofList, String.toList_ofList]

end Text

open Text

/-! ### Columns with and without a table -/

theorem qualify_of_undotted (table : String) {column : String} (h : Undotted column) :
    qualify table column = table ++ "." ++ column := by
  simp [qualify, show ¬ '.' ∈ column.toList from h]

theorem qualify_of_dotted (table : String) {column : String} (h : ¬ Undotted column) :
    qualify table column = column := by
  have hdot : '.' ∈ column.toList := not_not.mp h
  simp [qualify, hdot]

theorem not_undotted_dotted (a b : String) : ¬ Undotted (a ++ "." ++ b) := by
  simp [Undotted]

theorem Sql.ColumnRef.resolve_dotted (own : String) {table : String} (h : Undotted table)
    (column : String) : ColumnRef.resolve own (table ++ "." ++ column) = ⟨table, column⟩ := by
  simp [ColumnRef.resolve, cutFirst_dotted h]

theorem Sql.ColumnRef.resolve_of_undotted (own : String) {column : String} (h : Undotted column) :
    ColumnRef.resolve own column = ⟨own, column⟩ := by
  simp [ColumnRef.resolve, cutFirst_of_undotted h]

/-- Where no table has a dot, two names of the same qualified column mean the same column. -/
theorem Sql.ColumnRef.resolve_qualify {table : String} (h : Undotted table) (column : String) :
    ColumnRef.resolve table (qualify table column) = ColumnRef.resolve table column := by
  by_cases hc : Undotted column
  · rw [qualify_of_undotted table hc, resolve_dotted table h, resolve_of_undotted table hc]
  · rw [qualify_of_dotted table hc]

theorem splitPath_of_undotted {path : String} (h : Undotted path) :
    splitPath path = (rootPath, path) := by
  simp [splitPath, cutLast_of_undotted h]

theorem splitPath_dotted (relation : String) {column : String} (h : Undotted column) :
    splitPath (relation ++ "." ++ column) = (relation, column) := by
  simp [splitPath, cutLast_dotted relation h]

/-- A path is a plain column, or a relation path and a column. -/
theorem eq_or_eq_dotted_of_splitPath (path : String) :
    Undotted (splitPath path).2 ∧
      (path = (splitPath path).2 ∧ (splitPath path).1 = rootPath ∨
        path = (splitPath path).1 ++ "." ++ (splitPath path).2) := by
  cases h : cutLast '.' path with
  | none =>
    have hp := undotted_of_cutLast_eq_none h
    rw [splitPath_of_undotted hp]
    exact ⟨hp, Or.inl ⟨rfl, rfl⟩⟩
  | some cut =>
    obtain ⟨relation, column⟩ := cut
    obtain ⟨rfl, hc⟩ := eq_dotted_of_cutLast h
    rw [splitPath_dotted relation hc]
    exact ⟨hc, Or.inr rfl⟩

end RestQuery
