import RestQuery.Proofs.Text.Listed

/-!
# Words

The words of a text are its maximal runs of characters that are not blank. A text has a word unless
all of its characters are blank, which is when nothing of it is left by trimming.
-/

namespace RestQuery.Text

/-! ### Pieces as maximal runs -/

/-- A piece of a text between characters that satisfy `p` or the ends of the text. -/
structure IsPiece (p : Char → Bool) (piece cs : List Char) : Prop where
  clear : ∀ c ∈ piece, p c = false
  bounded : ∃ before after, cs = before ++ piece ++ after ∧
    (∀ c ∈ before.getLast?, p c = true) ∧ ∀ c ∈ after.head?, p c = true

variable {p : Char → Bool}

/-- A text satisfies `p` nowhere, or it is cut at the first place where it does. -/
theorem clear_or_exists_first (p : Char → Bool) (cs : List Char) :
    (∀ c ∈ cs, p c = false) ∨
      ∃ before c after, cs = before ++ c :: after ∧ (∀ c ∈ before, p c = false) ∧ p c = true := by
  induction cs with
  | nil => exact .inl (by simp)
  | cons c cs ih =>
    by_cases hc : p c = true
    · exact .inr ⟨[], c, cs, rfl, by simp, hc⟩
    · have hc' : p c = false := by simpa using hc
      rcases ih with hclear | ⟨before, d, after, rfl, hbefore, hd⟩
      · exact .inl (List.forall_mem_cons.mpr ⟨hc', hclear⟩)
      · exact .inr ⟨c :: before, d, after, rfl, List.forall_mem_cons.mpr ⟨hc', hbefore⟩, hd⟩

theorem isPiece_of_mem_splitWhere {piece cs : List Char} (h : piece ∈ splitWhere p cs) :
    IsPiece p piece cs := by
  refine ⟨not_of_mem_splitWhere p h, ?_⟩
  induction hlength : cs.length using Nat.strong_induction_on generalizing cs with
  | _ n ih =>
    rcases clear_or_exists_first p cs with hclear | ⟨before, c, after, rfl, hbefore, hc⟩
    · rw [splitWhere_of_forall_not p hclear, List.mem_singleton] at h
      subst h
      exact ⟨[], [], by simp, by simp, by simp⟩
    · rw [splitWhere_append_cons p hc, splitWhere_of_forall_not p hbefore,
        List.singleton_append, List.mem_cons] at h
      rcases h with rfl | h
      · exact ⟨[], c :: after, by simp, by simp, by simpa using hc⟩
      · have hlt : after.length < n := by
          rw [← hlength, List.length_append, List.length_cons]
          omega
        obtain ⟨start, rest, rfl, hstart, hrest⟩ := ih _ hlt h rfl
        refine ⟨before ++ c :: start, rest, by simp, ?_, hrest⟩
        cases start with
        | nil => simpa using hc
        | cons d start => simpa [List.getLast?_append, List.getLast?_cons_cons] using hstart

theorem mem_splitWhere_of_isPiece {piece cs : List Char} (h : IsPiece p piece cs) :
    piece ∈ splitWhere p cs := by
  obtain ⟨hclear, before, after, rfl, hbefore, hafter⟩ := h
  have hmiddle : piece ∈ splitWhere p (piece ++ after) := by
    cases after with
    | nil => simp [splitWhere_of_forall_not p hclear]
    | cons c after =>
      have hc : p c = true := hafter c rfl
      simp [splitWhere_append_cons p hc, splitWhere_of_forall_not p hclear]
  rcases List.eq_nil_or_concat before with rfl | ⟨before, c, rfl⟩
  · simpa using hmiddle
  · have hc : p c = true := hbefore c (by simp)
    rw [List.concat_eq_append, List.append_assoc, List.append_assoc, List.singleton_append,
      splitWhere_append_cons p hc]
    exact List.mem_append_right _ hmiddle

theorem mem_splitWhere_iff {piece cs : List Char} :
    piece ∈ splitWhere p cs ↔ IsPiece p piece cs :=
  ⟨isPiece_of_mem_splitWhere, mem_splitWhere_of_isPiece⟩

/-! ### Words -/

/-- A maximal run of characters of a text that are not blank, with at least one character. -/
structure IsWord (word s : String) : Prop where
  ne_empty : word ≠ ""
  piece : IsPiece isBlank word.toList s.toList

theorem mem_words_iff {word s : String} : word ∈ words s ↔ IsWord word s := by
  constructor
  · intro h
    obtain ⟨cs, hcs, rfl⟩ := List.mem_map.mp h
    obtain ⟨hcs, hne⟩ := List.mem_filter.mp hcs
    refine ⟨?_, ?_⟩
    · intro he
      have hnil : cs = [] := by simpa using congrArg String.toList he
      simp [hnil] at hne
    · rw [String.toList_ofList]
      exact mem_splitWhere_iff.mp hcs
  · rintro ⟨hne, hpiece⟩
    refine List.mem_map.mpr ⟨word.toList, List.mem_filter.mpr ⟨mem_splitWhere_iff.mpr hpiece, ?_⟩,
      String.ofList_toList⟩
    simpa using hne

theorem IsWord.exists_not_isBlank {word s : String} (h : IsWord word s) :
    ∃ c ∈ s.toList, isBlank c = false := by
  obtain ⟨hne, hclear, before, after, hs, -⟩ := h
  obtain ⟨c, hc⟩ := List.exists_mem_of_ne_nil word.toList (by simpa using hne)
  exact ⟨c, by simp [hs, hc], hclear c hc⟩

theorem trim_eq_empty_iff {s : String} : trim s = "" ↔ ∀ c ∈ s.toList, isBlank c = true := by
  have hnil : trim s = "" ↔ trimChars s.toList = [] := by simp [trim]
  rw [hnil, trimChars_eq, List.rdropWhile_eq_nil_iff]
  constructor
  · intro h c hc
    rw [← List.takeWhile_append_dropWhile (p := isBlank) (l := s.toList), List.mem_append] at hc
    rcases hc with hc | hc
    · exact List.mem_takeWhile_imp hc
    · exact h c hc
  · exact fun h c hc => h c ((List.dropWhile_sublist isBlank).mem hc)

end RestQuery.Text
