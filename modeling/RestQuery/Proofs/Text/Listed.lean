import Mathlib.Data.List.DropRight
import Mathlib.Data.List.Forall2
import RestQuery.Proofs.Text.Digits
import RestQuery.Proofs.Text.Dotted

/-!
# Lists with commas

The members of a list that is written with commas are not empty, have no comma and no blank at
either end. Members of this kind, joined with commas, are read back as they are, also where blanks
are put around them.
-/

namespace RestQuery.Text

theorem trimChars_eq (cs : List Char) :
    trimChars cs = (cs.dropWhile isBlank).rdropWhile isBlank := rfl

theorem trimChars_trimChars (cs : List Char) : trimChars (trimChars cs) = trimChars cs := by
  have hhead : (trimChars cs).dropWhile isBlank = trimChars cs := by
    rw [List.dropWhile_eq_self_iff]
    intro hpos
    -- what is cut off at the end leaves the first character in place
    have hbegins : trimChars cs <+: cs.dropWhile isBlank := List.rdropWhile_prefix _ _
    rw [hbegins.getElem hpos]
    exact List.dropWhile_eq_self_iff.mp (List.dropWhile_idempotent _ _) _
  rw [trimChars_eq (trimChars cs), hhead, trimChars_eq, List.rdropWhile_idempotent]

theorem mem_of_mem_trimChars {c : Char} {cs : List Char} (h : c ∈ trimChars cs) : c ∈ cs :=
  (List.dropWhile_sublist isBlank).mem ((List.rdropWhile_prefix _ _).mem h)

theorem isBlank_of_isDigit {d : Char} (h : d.isDigit = true) : isBlank d = false := by
  obtain ⟨hlow, hhigh⟩ := isDigit_iff.mp h
  simp only [isBlank, Bool.or_eq_false_iff, Bool.and_eq_false_iff, decide_eq_false_iff_not,
    beq_eq_false_iff_ne]
  omega

/-- Blanks around a trimmed text are cut off. -/
theorem trimChars_between {before core after : List Char}
    (hbefore : ∀ c ∈ before, isBlank c = true) (hcore : trimChars core = core)
    (hafter : ∀ c ∈ after, isBlank c = true) : trimChars (before ++ core ++ after) = core := by
  have hstart : core.dropWhile isBlank = core := by
    refine (List.dropWhile_sublist isBlank).eq_of_length_le ?_
    nth_rewrite 1 [← hcore]
    exact (List.rdropWhile_prefix _ _).length_le
  have hend : core.rdropWhile isBlank = core := by
    rwa [trimChars_eq, hstart] at hcore
  rw [trimChars_eq, List.append_assoc, List.dropWhile_append_of_pos hbefore, List.dropWhile_append,
    hstart]
  cases core with
  | nil =>
    have hnil : after.dropWhile isBlank = [] := List.dropWhile_eq_nil_iff.mpr hafter
    rw [List.isEmpty_nil, if_pos rfl, hnil]
    rfl
  | cons c core =>
    rw [List.isEmpty_cons, if_neg (by decide), List.rdropWhile, List.reverse_append,
      List.dropWhile_append_of_pos fun c hc => hafter c (List.mem_reverse.mp hc)]
    exact hend

/-- Blanks on both sides are cut off. -/
theorem trimChars_of_blanks {before core after : List Char}
    (hbefore : ∀ c ∈ before, isBlank c = true) (hcore : ∀ c ∈ core, isBlank c = false)
    (hafter : ∀ c ∈ after, isBlank c = true) : trimChars (before ++ core ++ after) = core := by
  have hclear : ∀ {cs : List Char}, (∀ c ∈ cs, isBlank c = false) → cs.dropWhile isBlank = cs := by
    intro cs h
    cases cs with
    | nil => rfl
    | cons c cs => exact List.dropWhile_cons_of_neg (by simp [h c List.mem_cons_self])
  refine trimChars_between hbefore ?_ hafter
  rw [trimChars, hclear hcore, hclear fun c hc => hcore c (List.mem_reverse.mp hc),
    List.reverse_reverse]

theorem exists_eq_append_trimChars (cs : List Char) :
    ∃ before after, cs = before ++ trimChars cs ++ after ∧
      (∀ c ∈ before, isBlank c = true) ∧ ∀ c ∈ after, isBlank c = true := by
  refine ⟨cs.takeWhile isBlank, (cs.dropWhile isBlank).rtakeWhile isBlank, ?_,
    fun c hc => List.mem_takeWhile_imp hc, fun c hc => List.mem_rtakeWhile_imp hc⟩
  rw [trimChars_eq, List.append_assoc, List.rdropWhile_append_rtakeWhile,
    List.takeWhile_append_dropWhile]

/-- A text that can be a member of a list with commas. -/
structure ListMember (s : String) : Prop where
  ne_empty : s ≠ ""
  no_comma : ',' ∉ s.toList
  trimmed : trim s = s

theorem listMember_of_mem_listed {s member : String} (h : member ∈ listed s) :
    ListMember member := by
  obtain ⟨htrimmed, hne⟩ := List.mem_filter.mp h
  obtain ⟨piece, hpiece, rfl⟩ := List.mem_map.mp htrimmed
  obtain ⟨cs, hcs, rfl⟩ := List.mem_map.mp hpiece
  refine ⟨by simpa using hne, fun hcomma => ?_, ?_⟩
  · have hmem : ',' ∈ cs := by
      rw [trim, String.toList_ofList, String.toList_ofList] at hcomma
      exact mem_of_mem_trimChars hcomma
    have hnot := not_of_mem_splitWhere _ hcs ',' hmem
    simp at hnot
  · rw [trim, trim, String.toList_ofList, trimChars_trimChars]

theorem not_mem_intercalate {c : Char} {texts : List String} (hc : c ≠ ',')
    (h : ∀ text ∈ texts, c ∉ text.toList) : c ∉ (",".intercalate texts).toList := by
  induction texts with
  | nil => simp
  | cons first rest ih =>
    obtain ⟨hfirst, hrest⟩ := List.forall_mem_cons.mp h
    cases rest with
    | nil => simpa using hfirst
    | cons second rest =>
      rw [String.intercalate_cons_cons]
      simpa [hc, hfirst] using ih hrest

theorem pieces_intercalate {members : List String} (hne : members ≠ [])
    (h : ∀ s ∈ members, ',' ∉ s.toList) : pieces ',' (",".intercalate members) = members := by
  have hcomma : ",".toList = [','] := rfl
  rw [pieces, String.toList_intercalate, hcomma, splitWhere_intercalate (by simpa using hne)
    (List.forall_mem_map.mpr h), List.map_map]
  simp [Function.comp_def]

/-- A text with blanks around it. -/
def Padded (s text : String) : Prop :=
  ∃ before after, text = before ++ s ++ after ∧ (∀ c ∈ before.toList, isBlank c = true) ∧
    ∀ c ∈ after.toList, isBlank c = true

section

variable {s text : String}

theorem padded_self (s : String) : Padded s s := ⟨"", "", by simp, by simp, by simp⟩

theorem Padded.trim_eq (h : Padded s text) (hs : trim s = s) : trim text = s := by
  obtain ⟨before, after, rfl, hbefore, hafter⟩ := h
  have hcore : trimChars s.toList = s.toList := by
    simpa [trim] using congrArg String.toList hs
  rw [trim, String.toList_append, String.toList_append, trimChars_between hbefore hcore hafter,
    String.ofList_toList]

theorem Padded.not_mem {c : Char} (h : Padded s text) (hc : isBlank c = false)
    (hs : c ∉ s.toList) : c ∉ text.toList := by
  obtain ⟨before, after, rfl, hbefore, hafter⟩ := h
  rw [String.toList_append, String.toList_append, List.mem_append, List.mem_append]
  rintro ((hmem | hmem) | hmem)
  · exact absurd (hbefore c hmem) (by simp [hc])
  · exact hs hmem
  · exact absurd (hafter c hmem) (by simp [hc])

theorem Padded.ne_empty (h : Padded s text) (hs : s ≠ "") : text ≠ "" := by
  obtain ⟨before, after, rfl, -, -⟩ := h
  simp [hs]

theorem not_mem_of_padded {members texts : List String} {c : Char}
    (h : List.Forall₂ Padded members texts) (hc : isBlank c = false)
    (hmembers : ∀ s ∈ members, c ∉ s.toList) : ∀ text ∈ texts, c ∉ text.toList := by
  induction h with
  | nil => simp
  | cons hpadded _ ih =>
    obtain ⟨hs, hrest⟩ := List.forall_mem_cons.mp hmembers
    exact List.forall_mem_cons.mpr ⟨hpadded.not_mem hc hs, ih hrest⟩

end

/-- Members with blanks around them, joined with commas, are read back without the blanks. -/
theorem listed_padded {members texts : List String} (h : List.Forall₂ Padded members texts)
    (hmembers : ∀ s ∈ members, ListMember s) : listed (",".intercalate texts) = members := by
  have htrim : texts.map trim = members := by
    induction h with
    | nil => rfl
    | cons hpadded _ ih =>
      obtain ⟨hs, hrest⟩ := List.forall_mem_cons.mp hmembers
      rw [List.map_cons, hpadded.trim_eq hs.trimmed, ih hrest]
  have hcommas := not_mem_of_padded h (by decide) fun s hs => (hmembers s hs).no_comma
  by_cases hne : texts = []
  · subst hne
    rw [← htrim]
    decide
  · rw [listed, pieces_intercalate hne hcommas, htrim, List.filter_eq_self]
    intro s hs
    simpa using (hmembers s hs).ne_empty

/-- Members that are joined with commas are read back. -/
theorem listed_intercalate {members : List String} (h : ∀ s ∈ members, ListMember s) :
    listed (",".intercalate members) = members :=
  listed_padded (List.forall₂_same.mpr fun s _ => padded_self s) h

end RestQuery.Text
