import RestQuery.Proofs.Load.Keys
import RestQuery.Proofs.Sql.Literal

/-!
# Groups of related rows

The related rows are put into groups by the text of their key, and each row takes the group of its
own key. What it takes is what a search through all related rows would find for it: none of them is
left out, moved or taken twice, and one without a key is found for no row. Keys are compared by
their text, so a whole number is the same key as its digits, and as no other value.
-/

namespace RestQuery

open RestQuery.Relation (pivotAlias)

/-! ### Texts of keys -/

theorem Double.point_mem_placePoint {digits : List Char} {point : Int}
    (h : point < digits.length) : '.' ∈ placePoint digits point := by
  unfold placePoint
  rw [if_neg (by omega)]
  split <;> simp

/-- A double is written with a point or an exponent, or as no number at all. -/
theorem Double.exists_mark_scientific (d : Double) :
    ∃ c ∈ d.scientific.toList, c = '.' ∨ c = 'e' ∨ c = 'n' := by
  cases d with
  | infinite negative => exact ⟨'n', by simp [scientific], by simp⟩
  | finite negative mantissa exponent =>
    unfold scientific
    dsimp only
    rw [String.toList_ofList]
    split
    · exact ⟨'.', by simp, by simp⟩
    · split
      · exact ⟨'.', by simp, by simp⟩
      · next hpower =>
        split
        · next hpoint =>
          exact ⟨'.', List.mem_append_right _ (point_mem_placePoint (by omega)), by simp⟩
        · exact ⟨'e', by simp [exponentText], by simp⟩

inductive HasKeyText : Json → String → Prop
  | text (s : String) : HasKeyText (.text s) s
  | whole (n : Int) : HasKeyText (.number (.int n)) (toString n)
  | double (d : Double) : HasKeyText (.number (.double d)) d.scientific
  | yes : HasKeyText (.bool true) "true"
  | no : HasKeyText (.bool false) "false"

theorem keyText_eq_some_iff {value : Json} {key : String} :
    keyText value = some key ↔ HasKeyText value key := by
  constructor
  · intro h
    match value with
    | .text s => exact Option.some.inj h ▸ .text s
    | .number (.int n) => exact Option.some.inj h ▸ .whole n
    | .number (.double d) => exact Option.some.inj h ▸ .double d
    | .bool true => exact Option.some.inj h ▸ .yes
    | .bool false => exact Option.some.inj h ▸ .no
  · intro h
    cases h <;> rfl

theorem keyAt_eq_some_iff {column : String} {row : Row} {key : String} :
    keyAt column row = some key ↔ ∃ value, row.get? column = some value ∧ HasKeyText value key := by
  rw [keyAt, Option.bind_eq_some_iff]
  simp only [keyText_eq_some_iff]

theorem mem_toString {n : Int} {c : Char} (h : c ∈ (toString n).toList) :
    c = '-' ∨ c.isDigit = true := by
  rw [Sql.toList_toString, List.mem_append] at h
  rcases h with hsign | hdigits
  · unfold Double.sign at hsign
    split at hsign
    · exact .inl (List.mem_singleton.mp hsign)
    · cases hsign
  · exact .inr (Nat.isDigit_of_mem_toDigits (by decide) (by decide) hdigits)

/-- A whole number is the same key as its digits, and as no other value. -/
theorem hasKeyText_toString_iff {value : Json} {n : Int} :
    HasKeyText value (toString n) ↔ value = .number (.int n) ∨ value = .text (toString n) := by
  constructor
  · intro h
    generalize hkey : toString n = key at h
    cases h with
    | text s => exact .inr rfl
    | whole m => exact .inl (by rw [Int.repr_injective hkey])
    | double d =>
      obtain ⟨c, hmem, hc⟩ := d.exists_mark_scientific
      have hdigit := mem_toString (hkey ▸ hmem)
      rcases hc with rfl | rfl | rfl <;> exact absurd hdigit (by decide)
    | yes =>
      exact absurd (mem_toString (n := n) (c := 't') (by simp [hkey])) (by decide)
    | no =>
      exact absurd (mem_toString (n := n) (c := 'f') (by simp [hkey])) (by decide)
  · rintro (rfl | rfl)
    · exact .whole n
    · exact .text (toString n)

theorem keyAt_eq_none_iff {column : String} {row : Row} :
    keyAt column row = none ↔ ∀ value, row.get? column = some value → ¬ value.IsScalar := by
  unfold keyAt
  cases hget : row.get? column with
  | none => simp
  | some value =>
    simp only [Option.bind_some, Option.some.injEq, forall_eq', ← exists_keyText_iff,
      ← Option.ne_none_iff_exists', ne_eq, not_not]

namespace Stitch

variable {childColumn : String}

theorem matching_some (key : String) (children : List Row) :
    matching childColumn (some key) children =
      children.filter fun child => keyAt childColumn child = some key := by
  refine List.filter_congr fun child _ => ?_
  have hsame : sameKey (some key) (keyAt childColumn child) = true ↔
      some key = keyAt childColumn child := by simp [sameKey]
  rw [Bool.eq_iff_iff, hsame, decide_eq_true_eq, eq_comm]

theorem matching_none (children : List Row) : matching childColumn none children = [] :=
  List.filter_eq_nil_iff.mpr fun _ _ => by simp [sameKey]

theorem matching_eq_nil_iff {key : Option String} {children : List Row} :
    matching childColumn key children = [] ↔
      ∀ own, key = some own → ∀ child ∈ children, keyAt childColumn child ≠ some own := by
  cases key with
  | none => simp [matching_none]
  | some own => simp [matching_some]

/-- A related row without a key is found for no row. -/
theorem matching_of_keyless {child : Row} (h : keyAt childColumn child = none)
    (key : Option String) (before after : List Row) :
    matching childColumn key (before ++ child :: after) =
      matching childColumn key (before ++ after) := by
  unfold matching
  rw [List.filter_append, List.filter_append, List.filter_cons, h, sameKey_none]
  rfl

theorem get?_detached (childColumn : String) (child : Row) (column : String) :
    (detached childColumn child).get? column =
      if childColumn = pivotAlias ∧ column = pivotAlias then none else child.get? column := by
  unfold detached
  by_cases hpivot : childColumn = pivotAlias
  · by_cases hcolumn : column = pivotAlias <;> simp [hpivot, hcolumn]
  · simp [hpivot]

/-- A row with the related rows that a search for its key finds, and otherwise as it was. -/
structure Receives (children : List Row) (name parentColumn childColumn : String) (toMany : Bool)
    (row row' : Row) : Prop where
  elsewhere : ∀ column, column ≠ name → row'.get? column = row.get? column
  many : toMany = true → ∀ key, keyAt parentColumn row = some key →
    row'.get? name = some (.array ((children.filter fun child =>
      keyAt childColumn child = some key).map fun child => .object (detached childColumn child)))
  one : toMany = false → ∀ key first, keyAt parentColumn row = some key →
    children.find? (fun child => keyAt childColumn child = some key) = some first →
      row'.get? name = some (.object (detached childColumn first))
  nothing : (∀ key, keyAt parentColumn row = some key →
      ∀ child ∈ children, keyAt childColumn child ≠ some key) →
    row'.get? name = some (if toMany then .array [] else .null)

theorem receives_insert_shown (children : List Row) (name parentColumn childColumn : String)
    (toMany : Bool) (row : Row) :
    Receives children name parentColumn childColumn toMany row (row.insert name (shown toMany
      ((matching childColumn (keyAt parentColumn row) children).map fun child =>
        .object (detached childColumn child)))) where
  elsewhere column hcolumn := Dict.get?_insert_of_ne row _ hcolumn
  many hmany key hkey := by
    simp [hkey, matching_some, hmany, shown]
  one hone key first hkey hfirst := by
    rw [← List.head?_filter, ← matching_some] at hfirst
    simp [hkey, hone, shown, hfirst]
  nothing hnone := by
    cases toMany <;> simp [matching_eq_nil_iff.mpr hnone, shown]

/-- Every row receives what a search through the related rows finds for it, whatever the two lists
hold. Texts, numbers and truth values are keys, each by its text, so that a whole number is the key
of its digits and of nothing else, and a related row that has no key might as well be missing. What
is attached lacks nothing but the alias of the pivot key, and this only where it is the key. -/
theorem rows_receive_groups (rows children : List Row) (name parentColumn childColumn : String)
    (toMany : Bool) :
    List.Forall₂ (Receives children name parentColumn childColumn toMany) rows
      (attach rows children name parentColumn childColumn toMany) ∧
    (∀ column row key, keyAt column row = some key ↔
      ∃ value, row.get? column = some value ∧ HasKeyText value key) ∧
    (∀ value (n : Int), HasKeyText value (toString n) ↔
      value = .number (.int n) ∨ value = .text (toString n)) ∧
    (∀ column row, keyAt column row = none ↔
      ∀ value, row.get? column = some value → ¬ value.IsScalar) ∧
    (∀ before child after, children = before ++ child :: after →
      keyAt childColumn child = none →
        attach rows children name parentColumn childColumn toMany =
          attach rows (before ++ after) name parentColumn childColumn toMany) ∧
    ∀ child, (childColumn ≠ pivotAlias → detached childColumn child = child) ∧
      ∀ column, (detached childColumn child).get? column =
        if childColumn = pivotAlias ∧ column = pivotAlias then none else child.get? column := by
  refine ⟨?_, fun _ _ _ => keyAt_eq_some_iff, fun _ _ => hasKeyText_toString_iff,
    fun _ _ => keyAt_eq_none_iff, ?_,
    fun child => ⟨fun hpivot => if_neg hpivot, get?_detached childColumn child⟩⟩
  · rw [attach_eq, List.forall₂_map_right_iff]
    exact List.forall₂_same.mpr fun row _ => receives_insert_shown ..
  · rintro before child after rfl hkeyless
    simp only [attach_eq, matching_of_keyless hkeyless]

/-- Tags that were found for the keys `1` and `2`, for a truth value and for none. -/
def foundTags : List Row :=
  [[("__pivot", .ofNat 1), ("id", .ofNat 5)],
    [("__pivot", .text "2"), ("id", .ofNat 6)],
    [("__pivot", .text "1"), ("id", .ofNat 7)],
    [("__pivot", .bool true), ("id", .ofNat 8)],
    [("__pivot", .null), ("id", .ofNat 9)]]

/-- A number and a text receive the same two tags, in their order and without the alias. -/
theorem rows_receive_groups_of_tags :
    let rows : List Row := [[("id", .ofNat 1)], [("id", .text "1")], [("id", .ofNat 2)],
      [("id", .text "true")], [("id", .null)], [("id", .array [.ofNat 1])]]
    let answer := attach rows foundTags "tags" "id" pivotAlias true
    List.Forall₂ (Receives foundTags "tags" "id" pivotAlias true) rows answer ∧
    answer.map (fun row => row.get? "tags") =
      [some (.array [.object [("id", .ofNat 5)], .object [("id", .ofNat 7)]]),
        some (.array [.object [("id", .ofNat 5)], .object [("id", .ofNat 7)]]),
        some (.array [.object [("id", .ofNat 6)]]), some (.array [.object [("id", .ofNat 8)]]),
        some (.array []), some (.array [])] ∧
    HasKeyText (.number (.double (.ofRatio false 3 2))) "1.5" ∧
    ¬ HasKeyText (.number (.double (.ofRatio false 1 1))) (toString (1 : Int)) := by
  intro rows answer
  obtain ⟨hreceives, -, hdigits, -⟩ :=
    rows_receive_groups rows foundTags "tags" "id" pivotAlias true
  refine ⟨hreceives, by cbv, keyText_eq_some_iff.mp (by decide +kernel), fun h => ?_⟩
  rcases (hdigits _ _).mp h with h | h <;> cases h

end Stitch

end RestQuery
