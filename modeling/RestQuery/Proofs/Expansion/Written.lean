import RestQuery.Proofs.Expansion.Exact
import RestQuery.Proofs.Text.Listed

/-!
# Writing a list of paths

An item is written as its path, with its columns in brackets behind it, and items are joined with
commas. A comma in brackets separates columns and all others separate items, so a list that is
written like this is read back item by item, wherever blanks are put around paths and columns.
-/

namespace RestQuery

open Text

namespace ExpandItem

/-- An item that can be written: no part of it is empty, begins or ends with a blank, or has a
character in it that would end it. -/
structure Writable (item : ExpandItem) : Prop where
  path : ListMember item.path
  no_open : '[' ∉ item.path.toList
  columns : ∀ column ∈ item.columns, ListMember column
  no_close : ∀ column ∈ item.columns, ']' ∉ column.toList

/-- The texts of an item. Without columns it may have no brackets or an empty pair of them. -/
inductive WrittenAs : ExpandItem → String → Prop
  | bare {path text : String} (hpath : Padded path text) : WrittenAs ⟨path, []⟩ text
  | bracketed {path text after : String} {columns texts : List String} (hpath : Padded path text)
      (hcolumns : List.Forall₂ Padded columns texts)
      (hafter : ∀ c ∈ after.toList, isBlank c = true) :
      WrittenAs ⟨path, columns⟩ (text ++ "[" ++ ",".intercalate texts ++ "]" ++ after)

/-! ### Paths and brackets -/

def endsPath (c : Char) : Bool := c == ',' || c == '['

theorem endsPath_eq_false_iff {c : Char} : endsPath c = false ↔ c ≠ ',' ∧ c ≠ '[' := by
  rw [endsPath, Bool.or_eq_false_iff, beq_eq_false_iff_ne, beq_eq_false_iff_ne]

theorem endsPath_of_isBlank {c : Char} (h : isBlank c = true) : endsPath c = false := by
  rw [endsPath_eq_false_iff]
  constructor
  · rintro rfl
    exact absurd h (by decide)
  · rintro rfl
    exact absurd h (by decide)

theorem scan_inPath {cs : List Char} (h : ∀ c ∈ cs, endsPath c = false) (path rest : List Char) :
    scan (.inPath path) (cs ++ rest) = scan (.inPath (cs.reverse ++ path)) rest := by
  induction cs generalizing path with
  | nil => rfl
  | cons c cs ih =>
    obtain ⟨hc, hcs⟩ := List.forall_mem_cons.mp h
    obtain ⟨hcomma, hopen⟩ := endsPath_eq_false_iff.mp hc
    rw [List.cons_append, scan, if_neg hcomma, if_neg hopen, ih hcs]
    simp

theorem scan_inColumns {cs : List Char} (h : ']' ∉ cs) (path columns rest : List Char) :
    scan (.inColumns path columns) (cs ++ rest) =
      scan (.inColumns path (cs.reverse ++ columns)) rest := by
  induction cs generalizing columns with
  | nil => rfl
  | cons c cs ih =>
    rw [List.mem_cons, not_or] at h
    rw [List.cons_append, scan, if_neg (Ne.symm h.1), ih h.2]
    simp

theorem scan_between {path : List Char} (hne : path ≠ []) (h : ∀ c ∈ path, endsPath c = false)
    (rest : List Char) : scan .between (path ++ rest) = scan (.inPath path.reverse) rest := by
  obtain ⟨c, cs, rfl⟩ := List.exists_cons_of_ne_nil hne
  obtain ⟨hc, hcs⟩ := List.forall_mem_cons.mp h
  have hends : ¬ (c = ',' ∨ c = '[') := not_or.mpr (endsPath_eq_false_iff.mp hc)
  rw [List.cons_append, scan, if_neg hends, scan_inPath hcs]
  simp

def EndsItem (rest : List Char) : Prop := rest = [] ∨ ∃ more, rest = ',' :: more

theorem scan_comma (rest : List Char) : scan .between (',' :: rest) = scan .between rest := by
  rw [scan, if_pos (.inl rfl)]

theorem scan_bare {path rest : List Char} (hne : path ≠ []) (h : ∀ c ∈ path, endsPath c = false)
    (hrest : EndsItem rest) :
    scan .between (path ++ rest) = (path, []) :: scan .between rest := by
  rw [scan_between hne h]
  rcases hrest with rfl | ⟨more, rfl⟩
  · rw [scan, scan, List.reverse_reverse]
  · rw [scan_comma, scan, if_pos rfl, List.reverse_reverse]

theorem scan_bracketed {path columns : List Char} (hne : path ≠ [])
    (h : ∀ c ∈ path, endsPath c = false) (hcolumns : ']' ∉ columns) (rest : List Char) :
    scan .between (path ++ '[' :: (columns ++ ']' :: rest)) =
      (path, columns) :: scan .between rest := by
  have hclosed : (columns ++ ']' :: rest).contains ']' = true := by simp
  rw [scan_between hne h, scan, if_neg (by decide), if_pos rfl, if_pos hclosed,
    scan_inColumns hcolumns, scan, if_pos rfl]
  simp

/-! ### Items -/

/-- The items of a list, from a place between them on. -/
def itemsOf (cs : List Char) : List ExpandItem :=
  ((scan .between cs).map fun (path, columns) =>
    ⟨trim (String.ofList path), listed (String.ofList columns)⟩).filter (·.path ≠ "")

theorem readAll_eq_itemsOf (value : String) : readAll value = itemsOf value.toList := rfl

theorem itemsOf_comma (rest : List Char) : itemsOf (',' :: rest) = itemsOf rest := by
  rw [itemsOf, scan_comma]
  rfl

theorem itemsOf_of_scan {cs path columns rest : List Char}
    (h : scan .between cs = (path, columns) :: scan .between rest) :
    itemsOf cs = if trim (String.ofList path) = "" then itemsOf rest
      else ⟨trim (String.ofList path), listed (String.ofList columns)⟩ :: itemsOf rest := by
  rw [itemsOf, h, List.map_cons, List.filter_cons]
  by_cases hblank : trim (String.ofList path) = ""
  · rw [if_neg (by simpa using hblank), if_pos hblank]
    rfl
  · rw [if_pos (by simpa using hblank), if_neg hblank]
    rfl

theorem itemsOf_blanks {blanks rest : List Char} (h : ∀ c ∈ blanks, isBlank c = true)
    (hrest : EndsItem rest) : itemsOf (blanks ++ rest) = itemsOf rest := by
  by_cases hne : blanks = []
  · rw [hne, List.nil_append]
  · have hclear : ∀ c ∈ blanks, endsPath c = false := fun c hc => endsPath_of_isBlank (h c hc)
    have htrim : trim (String.ofList blanks) = "" := by
      have hpadded : Padded "" (String.ofList blanks) :=
        ⟨String.ofList blanks, "", by simp, by simpa using h, by simp⟩
      exact hpadded.trim_eq (by decide)
    rw [itemsOf_of_scan (scan_bare hne hclear hrest), if_pos htrim]

/-- A path with blanks around it is read up to its end, and the blanks are cut off. -/
theorem Writable.padded_path {item : ExpandItem} {text : String} (hitem : Writable item)
    (hpadded : Padded item.path text) :
    text.toList ≠ [] ∧ (∀ c ∈ text.toList, endsPath c = false) ∧
      trim (String.ofList text.toList) = item.path := by
  have hcomma := hpadded.not_mem (by decide) hitem.path.no_comma
  have hopen := hpadded.not_mem (by decide) hitem.no_open
  refine ⟨by simpa using hpadded.ne_empty hitem.path.ne_empty, fun c hc => ?_, ?_⟩
  · rw [endsPath_eq_false_iff]
    exact ⟨fun he => hcomma (he ▸ hc), fun he => hopen (he ▸ hc)⟩
  · rw [String.ofList_toList, hpadded.trim_eq hitem.path.trimmed]

/-- A written item is read, and what follows it is read after it. -/
theorem WrittenAs.itemsOf_append {item : ExpandItem} {text : String} {rest : List Char}
    (h : WrittenAs item text) (hitem : Writable item) (hrest : EndsItem rest) :
    itemsOf (text.toList ++ rest) = item :: itemsOf rest := by
  cases h with
  | bare hpadded =>
    obtain ⟨hne, hclear, htrim⟩ := hitem.padded_path hpadded
    have hnone : listed (String.ofList []) = [] := by decide
    rw [itemsOf_of_scan (scan_bare hne hclear hrest), htrim, if_neg hitem.path.ne_empty, hnone]
  | @bracketed path text after columns texts hpadded hcolumns hafter =>
    obtain ⟨hne, hclear, htrim⟩ := hitem.padded_path hpadded
    have hclose : ']' ∉ (",".intercalate texts).toList :=
      not_mem_intercalate (by decide) (not_mem_of_padded hcolumns (by decide) hitem.no_close)
    have hchars : (text ++ "[" ++ ",".intercalate texts ++ "]" ++ after).toList ++ rest =
        text.toList ++
          '[' :: ((",".intercalate texts).toList ++ ']' :: (after.toList ++ rest)) := by
      simp
    rw [hchars, itemsOf_of_scan (scan_bracketed hne hclear hclose _), htrim,
      if_neg hitem.path.ne_empty, itemsOf_blanks hafter hrest, String.ofList_toList,
      listed_padded hcolumns hitem.columns]

theorem readAll_written {items : List ExpandItem} {texts : List String}
    (h : List.Forall₂ WrittenAs items texts) (hitems : ∀ item ∈ items, Writable item) :
    readAll (",".intercalate texts) = items := by
  rw [readAll_eq_itemsOf]
  -- an item ends at the end of the list or at the comma before the next one
  induction h with
  | nil => rfl
  | @cons item text items texts hwritten hrest ih =>
    obtain ⟨hitem, hitems⟩ := List.forall_mem_cons.mp hitems
    cases texts with
    | nil =>
      cases hrest
      rw [String.intercalate_singleton, ← List.append_nil text.toList,
        hwritten.itemsOf_append hitem (.inl rfl)]
      rfl
    | cons next texts =>
      have hchars : (",".intercalate (text :: next :: texts)).toList =
          text.toList ++ ',' :: (",".intercalate (next :: texts)).toList := by
        rw [String.intercalate_cons_cons]
        simp
      rw [hchars, hwritten.itemsOf_append hitem (.inr ⟨_, rfl⟩), itemsOf_comma, ih hitems]

end ExpandItem

namespace ExpandClause

open ExpandItem

/-- A written list of paths is read as its items: reading it expands them, one after another, with
the same outcome. -/
theorem written_items_read {items : List ExpandItem} {texts : List String}
    (hwritten : List.Forall₂ WrittenAs items texts) (hitems : ∀ item ∈ items, Writable item) :
    readAll (",".intercalate texts) = items ∧
    ∀ ctx ps clause, ctx.param? ps ["expand", "with"] = some (",".intercalate texts) →
      (read ctx ps clause).refusal = (gather (take ctx) clause.expansion items).refusal ∧
      (read ctx ps clause).state.expansion = (gather (take ctx) clause.expansion items).state := by
  have hread := readAll_written hwritten hitems
  refine ⟨hread, fun ctx ps clause hparam => ?_⟩
  rw [read, hparam]
  dsimp only
  rw [hread]
  exact ⟨rfl, rfl⟩

theorem written_items_read_of_books :
    readAll " books.author [ name ],books[]" = bookItems ∧
    (read writerContext (.ofPairs [("expand", " books.author [ name ],books[]")])
      .empty).refusal = none ∧
    (read writerContext (.ofPairs [("expand", " books.author [ name ],books[]")])
      .empty).state.expansion = bookExpansion := by
  have hblank : ∀ c ∈ " ".toList, isBlank c = true := by
    have hspace : " ".toList = [' '] := rfl
    rw [hspace, List.forall_mem_singleton]
    decide
  have hauthor : WrittenAs ⟨"books.author", ["name"]⟩
      (" books.author " ++ "[" ++ ",".intercalate [" name "] ++ "]" ++ "") :=
    .bracketed ⟨" ", " ", by decide +kernel, hblank, hblank⟩
      (.cons ⟨" ", " ", by decide +kernel, hblank, hblank⟩ .nil) (by simp)
  have hbooks : WrittenAs ⟨"books", []⟩ ("books" ++ "[" ++ ",".intercalate [] ++ "]" ++ "") :=
    .bracketed (padded_self _) .nil (by simp)
  have hwritten : List.Forall₂ WrittenAs bookItems [_, _] := .cons hauthor (.cons hbooks .nil)
  have hwritable : ∀ item ∈ bookItems, Writable item := by
    simp only [bookItems, List.forall_mem_cons]
    refine ⟨⟨⟨by decide, by decide, by decide +kernel⟩, by decide, ?_, ?_⟩,
      ⟨⟨by decide, by decide, by decide +kernel⟩, by decide, by simp, by simp⟩, by simp⟩
    · exact List.forall_mem_singleton.mpr ⟨by decide, by decide, by decide +kernel⟩
    · exact List.forall_mem_singleton.mpr (by decide)
  have htext : ",".intercalate
      [" books.author " ++ "[" ++ ",".intercalate [" name "] ++ "]" ++ "",
        "books" ++ "[" ++ ",".intercalate [] ++ "]" ++ ""] =
      " books.author [ name ],books[]" := by decide +kernel
  have hparam : writerContext.param? (.ofPairs [("expand", " books.author [ name ],books[]")])
      ["expand", "with"] = some " books.author [ name ],books[]" := by decide +kernel
  have hgather : gather (take writerContext) .empty bookItems = .accept bookExpansion := by cbv
  obtain ⟨hitems, hread⟩ := written_items_read hwritten hwritable
  rw [htext] at hitems hread
  obtain ⟨hrefusal, hexpansion⟩ := hread writerContext _ .empty hparam
  rw [hrefusal, hexpansion]
  exact ⟨hitems, congrArg Gathered.refusal hgather, congrArg Gathered.state hgather⟩

end ExpandClause

end RestQuery
