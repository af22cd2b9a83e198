import Mathlib.Algebra.Group.Int.Defs
import Mathlib.Computability.Language
import RestQuery.Proofs.Text.Digits
import RestQuery.Proofs.Text.Dotted
import RestQuery.Sql.Value

/-!
# Literals

A literal is bound as a whole number, a double, a truth value or as the text that it is, and the
form of its text alone decides which. The forms exclude each other. Only decimals lose their text:
of two literals that are bound alike, neither is anything but a decimal.
-/

namespace RestQuery.Sql

open Computability

/-! ### Signs -/

theorem cutSign_minus (cs : List Char) : cutSign ('-' :: cs) = (true, cs) := rfl

theorem cutSign_of_isWhole_append {ds : List Char} (h : Text.isWhole ds = true) (cs : List Char) :
    cutSign (ds ++ cs) = (false, ds ++ cs) := by
  cases ds with
  | nil => cases h
  | cons d ds =>
    have hd : d ≠ '-' := by
      rintro rfl
      simp [Text.isWhole] at h
    unfold cutSign
    split
    · next heq =>
      rw [List.cons_append, List.cons.injEq] at heq
      exact absurd heq.1 hd
    · rfl

/-- A text is its sign and what stands behind. -/
theorem eq_append_of_cutSign {cs rest : List Char} {negative : Bool}
    (h : cutSign cs = (negative, rest)) : cs = Double.sign negative ++ rest := by
  unfold cutSign at h
  split at h
  · cases h
    rfl
  · cases h
    rfl

/-! ### Whole numbers -/

def IsWholeText (raw : String) : Prop :=
  ∃ n : Int, raw = toString n ∧ -(2 ^ 63) ≤ n ∧ n < 2 ^ 63

theorem toList_toString (n : Int) :
    (toString n).toList = Double.sign (decide (n < 0)) ++ Nat.toDigits 10 n.natAbs := by
  rw [Int.toString_eq_repr, Int.repr_eq_if]
  split
  · next h =>
    have habs : n.toNat = n.natAbs := by omega
    simp [Double.sign, h, habs]
  · next h =>
    have habs : (-n).toNat = n.natAbs := by omega
    have hneg : n < 0 := by omega
    simp [Double.sign, hneg, habs]

theorem canonicalInt_sign_append (negative : Bool) {ds : List Char} (h : Text.isWhole ds = true) :
    canonicalInt (Double.sign negative ++ ds) =
      if negative then
        if 0 < Text.natOfDigits ds ∧ Text.natOfDigits ds ≤ intBound then
          some (-(Text.natOfDigits ds : Int))
        else none
      else if Text.natOfDigits ds < intBound then some (Text.natOfDigits ds : Int) else none := by
  cases negative with
  | true => simp [canonicalInt, Double.sign, cutSign_minus, h]
  | false =>
    have hcut : cutSign ds = (false, ds) := by simpa using cutSign_of_isWhole_append h []
    simp [canonicalInt, Double.sign, hcut, h]

theorem isWhole_of_canonicalInt {cs : List Char} {n : Int} (h : canonicalInt cs = some n) :
    ∃ negative ds, cs = Double.sign negative ++ ds ∧ Text.isWhole ds = true := by
  cases hcut : cutSign cs with
  | mk negative ds =>
    refine ⟨negative, ds, eq_append_of_cutSign hcut, ?_⟩
    by_contra hwhole
    simp [canonicalInt, hcut, hwhole] at h

theorem canonicalInt_eq_some_iff {raw : String} {n : Int} :
    canonicalInt raw.toList = some n ↔ raw = toString n ∧ -(2 ^ 63) ≤ n ∧ n < 2 ^ 63 := by
  have hbound : intBound = 2 ^ 63 := rfl
  rw [← String.toList_inj, toList_toString]
  constructor
  · intro h
    obtain ⟨negative, ds, hraw, hwhole⟩ := isWhole_of_canonicalInt h
    rw [hraw, canonicalInt_sign_append negative hwhole] at h
    have htext := Text.toDigits_natOfDigits hwhole
    cases negative with
    | true =>
      obtain ⟨⟨hpos, hsmall⟩, rfl⟩ : (0 < Text.natOfDigits ds ∧ Text.natOfDigits ds ≤ intBound) ∧
          -(Text.natOfDigits ds : Int) = n := by simpa using h
      have hneg : -(Text.natOfDigits ds : Int) < 0 := by omega
      refine ⟨?_, by omega, by omega⟩
      rw [hraw, decide_eq_true hneg, Int.natAbs_neg, Int.natAbs_natCast, htext]
    | false =>
      obtain ⟨hsmall, rfl⟩ : Text.natOfDigits ds < intBound ∧ (Text.natOfDigits ds : Int) = n := by
        simpa using h
      have hnonneg : ¬ (Text.natOfDigits ds : Int) < 0 := by omega
      refine ⟨?_, by omega, by omega⟩
      rw [hraw, decide_eq_false hnonneg, Int.natAbs_natCast, htext]
  · rintro ⟨hraw, hlow, hhigh⟩
    rw [hraw, canonicalInt_sign_append _ (Text.isWhole_toDigits n.natAbs),
      Text.natOfDigits_toDigits]
    by_cases hneg : n < 0
    · have hsmall : 0 < n.natAbs ∧ n.natAbs ≤ intBound := by omega
      have hvalue : -(n.natAbs : Int) = n := by omega
      rw [decide_eq_true hneg, if_pos rfl, if_pos hsmall, hvalue]
    · have hsmall : n.natAbs < intBound := by omega
      have hvalue : (n.natAbs : Int) = n := by omega
      rw [decide_eq_false hneg, if_neg Bool.false_ne_true, if_pos hsmall, hvalue]

/-! ### Decimals -/

/-- The texts of one character in a range, as `[0-9]` gives them. -/
def range (low high : Char) : Language Char := {cs | ∃ c, (low ≤ c ∧ c ≤ high) ∧ cs = [c]}

/-- The texts that match `-?(0|[1-9][0-9]*)\.[0-9]+`. -/
def decimals : Language Char :=
  (1 + {['-']}) * ({['0']} + range '1' '9' * (range '0' '9')∗) * {['.']} *
    (range '0' '9' * (range '0' '9')∗)

def IsDecimalText (raw : String) : Prop := raw.toList ∈ decimals

theorem mem_kstar_range {low high : Char} {cs : List Char} :
    cs ∈ (range low high)∗ ↔ ∀ c ∈ cs, low ≤ c ∧ c ≤ high := by
  rw [Language.mem_kstar]
  constructor
  · rintro ⟨parts, rfl, hparts⟩ c hc
    obtain ⟨part, hpart, hc⟩ := List.mem_flatten.mp hc
    obtain ⟨d, hd, rfl⟩ := hparts part hpart
    rwa [List.mem_singleton.mp hc]
  · intro h
    refine ⟨cs.map fun c => [c], ?_, fun part hpart => ?_⟩
    · rw [← List.flatMap_def, List.flatMap_singleton']
    obtain ⟨c, hc, rfl⟩ := List.mem_map.mp hpart
    exact ⟨c, h c hc, rfl⟩

theorem mem_range_mul {low high : Char} {l : Language Char} {cs : List Char} :
    cs ∈ range low high * l ↔ ∃ c rest, cs = c :: rest ∧ (low ≤ c ∧ c ≤ high) ∧ rest ∈ l := by
  rw [Language.mem_mul]
  constructor
  · rintro ⟨_, ⟨c, hc, rfl⟩, rest, hrest, rfl⟩
    exact ⟨c, rest, rfl, hc, hrest⟩
  · rintro ⟨c, rest, rfl, hc, hrest⟩
    exact ⟨[c], ⟨c, hc, rfl⟩, rest, hrest, rfl⟩

theorem isDigit_iff_le {c : Char} : c.isDigit = true ↔ '0' ≤ c ∧ c ≤ '9' := by
  simp [Char.isDigit, Char.le_def]

theorem one_le_iff {c : Char} : '1' ≤ c ∧ c ≤ '9' ↔ c.isDigit = true ∧ c ≠ '0' := by
  have hne : c ≠ '0' ↔ c.toNat ≠ 48 := by
    rw [ne_eq, ne_eq, ← Char.toNat_inj]
    rfl
  rw [Text.isDigit_iff, hne, Char.le_def, Char.le_def, UInt32.le_iff_toNat_le,
    UInt32.le_iff_toNat_le]
  change 49 ≤ c.toNat ∧ c.toNat ≤ 57 ↔ _
  omega

theorem isWhole_iff_mem {ds : List Char} :
    Text.isWhole ds = true ↔
      ds ∈ ({['0']} + range '1' '9' * (range '0' '9')∗ : Language Char) := by
  rw [Language.mem_add, mem_range_mul]
  simp only [mem_kstar_range, ← isDigit_iff_le, one_le_iff]
  cases ds with
  | nil =>
    have hne : ([] : List Char) ∉ ({['0']} : Language Char) := by
      intro h
      cases Set.mem_singleton_iff.mp h
    simp [Text.isWhole, hne]
  | cons d ds =>
    have hzero : d :: ds ∈ ({['0']} : Language Char) ↔ d = '0' ∧ ds = [] := by
      rw [← List.cons_eq_cons]
      exact Set.mem_singleton_iff
    rw [hzero]
    by_cases hd : d = '0'
    · subst hd
      cases ds <;> simp [Text.isWhole]
    · simp [Text.isWhole, hd]

theorem mem_digits_iff {ds : List Char} :
    ds ∈ range '0' '9' * (range '0' '9')∗ ↔ ds ≠ [] ∧ ds.all Char.isDigit = true := by
  rw [mem_range_mul]
  simp only [mem_kstar_range, ← isDigit_iff_le]
  cases ds <;> simp

theorem mem_sign_iff {cs : List Char} :
    cs ∈ (1 + {['-']} : Language Char) ↔ ∃ negative, cs = Double.sign negative := by
  rw [Language.mem_add, Language.mem_one, Bool.exists_bool]
  rfl

/-- A text with its sign, its digits before the point and those behind it. -/
structure IsDecimal (cs : List Char) (negative : Bool) (whole places : List Char) : Prop where
  text : cs = Double.sign negative ++ (whole ++ '.' :: places)
  whole : Text.isWhole whole = true
  places_ne : places ≠ []
  places : places.all Char.isDigit = true

theorem mem_decimals_iff {cs : List Char} :
    cs ∈ decimals ↔ ∃ negative whole places, IsDecimal cs negative whole places := by
  rw [decimals, Language.mem_mul]
  constructor
  · rintro ⟨_, hfront, places, hplaces, rfl⟩
    obtain ⟨_, hnumber, _, rfl, rfl⟩ := Language.mem_mul.mp hfront
    obtain ⟨_, hsign, whole, hwhole, rfl⟩ := Language.mem_mul.mp hnumber
    obtain ⟨negative, rfl⟩ := mem_sign_iff.mp hsign
    obtain ⟨hne, hall⟩ := mem_digits_iff.mp hplaces
    exact ⟨negative, whole, places, by simp, isWhole_iff_mem.mpr hwhole, hne, hall⟩
  · rintro ⟨negative, whole, places, rfl, hwhole, hne, hall⟩
    refine ⟨Double.sign negative ++ whole ++ ['.'], ?_, places, mem_digits_iff.mpr ⟨hne, hall⟩,
      by simp⟩
    have hsign := Language.append_mem_mul (mem_sign_iff.mpr ⟨negative, rfl⟩)
      (isWhole_iff_mem.mp hwhole)
    exact Language.append_mem_mul hsign (Set.mem_singleton _)

theorem all_isDigit_of_isWhole {ds : List Char} (h : Text.isWhole ds = true) :
    ∀ d ∈ ds, d.isDigit = true := by
  cases ds with
  | nil => cases h
  | cons d ds =>
    rw [Text.isWhole, Bool.and_eq_true] at h
    exact List.all_eq_true.mp h.1

/-- A decimal becomes the double nearest to it. -/
theorem decimal_eq_some_iff {cs : List Char} {d : Double} :
    decimal cs = some d ↔ ∃ negative whole places, IsDecimal cs negative whole places ∧
      d = .ofScientific negative (Text.natOfDigits (whole ++ places)) (-(places.length : Int)) := by
  constructor
  · intro h
    unfold decimal at h
    cases hcut : cutSign cs with
    | mk negative rest =>
      simp only [hcut] at h
      split at h
      · next whole places hpieces =>
        obtain ⟨⟨hwhole, hne, hall⟩, hd⟩ := Option.ite_none_right_eq_some.mp h
        obtain rfl := Option.some.inj hd
        have htext := Text.intercalate_splitWhere '.' rest
        rw [hpieces] at htext
        refine ⟨negative, whole, places, ⟨?_, hwhole, hne, hall⟩, rfl⟩
        rw [eq_append_of_cutSign hcut, ← htext]
        simp
      · cases h
  · rintro ⟨negative, whole, places, ⟨rfl, hwhole, hne, hall⟩, rfl⟩
    have hcut : cutSign (Double.sign negative ++ (whole ++ '.' :: places)) =
        (negative, whole ++ '.' :: places) := by
      cases negative with
      | true => rfl
      | false => exact cutSign_of_isWhole_append hwhole _
    have hdot : ∀ ds : List Char, (∀ d ∈ ds, d.isDigit = true) → ∀ d ∈ ds, (d == '.') = false := by
      intro ds hds d hd
      rw [beq_eq_false_iff_ne]
      rintro rfl
      cases hds '.' hd
    have hpieces : Text.splitWhere (· == '.') (whole ++ '.' :: places) = [whole, places] := by
      rw [Text.splitWhere_append_cons _ rfl,
        Text.splitWhere_of_forall_not _ (hdot whole (all_isDigit_of_isWhole hwhole)),
        Text.splitWhere_of_forall_not _ (hdot places (List.all_eq_true.mp hall))]
      rfl
    simp only [decimal, hcut, hpieces]
    rw [if_pos ⟨hwhole, hne, hall⟩]

/-! ### Forms of literals -/

def IsTruthText (raw : String) : Prop := ∃ b : Bool, raw = toString b

theorem isWholeText_iff {raw : String} :
    IsWholeText raw ↔ ∃ n, canonicalInt raw.toList = some n :=
  exists_congr fun _ => canonicalInt_eq_some_iff.symm

theorem isDecimalText_iff {raw : String} :
    IsDecimalText raw ↔ ∃ d, decimal raw.toList = some d := by
  simp only [IsDecimalText, mem_decimals_iff, decimal_eq_some_iff]
  constructor
  · rintro ⟨negative, whole, places, h⟩
    exact ⟨_, negative, whole, places, h, rfl⟩
  · rintro ⟨_, negative, whole, places, h, -⟩
    exact ⟨negative, whole, places, h⟩

/-- A decimal has a point, and a whole number has none. -/
theorem not_isWholeText_of_isDecimalText {raw : String} (h : IsDecimalText raw) :
    ¬ IsWholeText raw := by
  rintro ⟨n, hraw, -⟩
  obtain ⟨negative, whole, places, hdecimal⟩ := mem_decimals_iff.mp h
  have hpoint : '.' ∈ raw.toList := by
    rw [hdecimal.text]
    simp
  rw [hraw, toList_toString, List.mem_append] at hpoint
  rcases hpoint with hsign | hdigits
  · unfold Double.sign at hsign
    split at hsign <;> simp at hsign
  · cases Nat.isDigit_of_mem_toDigits (by decide) (by decide) hdigits

theorem isTruthText_iff {raw : String} : IsTruthText raw ↔ raw = "true" ∨ raw = "false" := by
  rw [IsTruthText, Bool.exists_bool, or_comm]
  rfl

theorem not_isWholeText_of_isTruthText {raw : String} (h : IsTruthText raw) :
    ¬ IsWholeText raw := by
  rw [isWholeText_iff]
  rcases isTruthText_iff.mp h with rfl | rfl <;> rintro ⟨n, hn⟩ <;> cases hn

theorem not_isDecimalText_of_isTruthText {raw : String} (h : IsTruthText raw) :
    ¬ IsDecimalText raw := by
  rw [isDecimalText_iff]
  rcases isTruthText_iff.mp h with rfl | rfl <;> rintro ⟨d, hd⟩ <;> cases hd

/-! ### Bound values -/

/-- The value for a literal, by the form of its text. -/
inductive BindsAs (raw : String) : Value → Prop
  | whole {n : Int} (h : canonicalInt raw.toList = some n) : BindsAs raw (.int n)
  | decimal {d : Double} (h : decimal raw.toList = some d) : BindsAs raw (.double d)
  | truth {b : Bool} (h : raw = toString b) : BindsAs raw (.bool b)
  | plain (hwhole : ¬ IsWholeText raw) (hdecimal : ¬ IsDecimalText raw)
      (htruth : ¬ IsTruthText raw) : BindsAs raw (.text raw)

theorem bindsAs_ofLiteral (raw : String) : BindsAs raw (.ofLiteral raw) := by
  unfold Value.ofLiteral
  split
  · next h => exact .whole h
  · next h => exact .decimal h
  · next hwhole hdecimal =>
    split
    · next h => exact .truth (b := true) h
    · next htrue =>
      split
      · next h => exact .truth (b := false) h
      · next hfalse =>
        refine .plain ?_ ?_ ?_
        · simp [isWholeText_iff, hwhole]
        · simp [isDecimalText_iff, hdecimal]
        · simp [isTruthText_iff, htrue, hfalse]

theorem canonicalInt_eq_none {raw : String} (h : ¬ IsWholeText raw) :
    canonicalInt raw.toList = none := by
  rw [isWholeText_iff, not_exists] at h
  exact Option.eq_none_iff_forall_ne_some.mpr h

theorem decimal_eq_none {raw : String} (h : ¬ IsDecimalText raw) : decimal raw.toList = none := by
  rw [isDecimalText_iff, not_exists] at h
  exact Option.eq_none_iff_forall_ne_some.mpr h

theorem ofLiteral_eq_iff {raw : String} {v : Value} : Value.ofLiteral raw = v ↔ BindsAs raw v := by
  constructor
  · rintro rfl
    exact bindsAs_ofLiteral raw
  · intro h
    unfold Value.ofLiteral
    cases h with
    | whole h => rw [h]
    | decimal h =>
      have hwhole := not_isWholeText_of_isDecimalText (isDecimalText_iff.mpr ⟨_, h⟩)
      rw [canonicalInt_eq_none hwhole, h]
    | @truth b h =>
      have htruth : IsTruthText raw := ⟨b, h⟩
      rw [canonicalInt_eq_none (not_isWholeText_of_isTruthText htruth),
        decimal_eq_none (not_isDecimalText_of_isTruthText htruth), h]
      cases b <;> rfl
    | plain hwhole hdecimal htruth =>
      rw [isTruthText_iff, not_or] at htruth
      rw [canonicalInt_eq_none hwhole, decimal_eq_none hdecimal]
      simp only [htruth, if_false]

theorem ofLiteral_eq_int_iff {raw : String} {n : Int} :
    Value.ofLiteral raw = .int n ↔ raw = toString n ∧ -(2 ^ 63) ≤ n ∧ n < 2 ^ 63 := by
  rw [ofLiteral_eq_iff, ← canonicalInt_eq_some_iff]
  constructor
  · intro h
    cases h with
    | whole h => exact h
  · exact .whole

theorem ofLiteral_eq_double_iff {raw : String} {d : Double} :
    Value.ofLiteral raw = .double d ↔ decimal raw.toList = some d := by
  rw [ofLiteral_eq_iff]
  constructor
  · intro h
    cases h with
    | decimal h => exact h
  · exact .decimal

theorem ofLiteral_eq_bool_iff {raw : String} {b : Bool} :
    Value.ofLiteral raw = .bool b ↔ raw = toString b := by
  rw [ofLiteral_eq_iff]
  constructor
  · intro h
    cases h with
    | truth h => exact h
  · exact .truth

theorem ofLiteral_eq_text_iff {raw text : String} :
    Value.ofLiteral raw = .text text ↔
      text = raw ∧ ¬ IsWholeText raw ∧ ¬ IsDecimalText raw ∧ ¬ IsTruthText raw := by
  rw [ofLiteral_eq_iff]
  constructor
  · intro h
    cases h with
    | plain hwhole hdecimal htruth => exact ⟨rfl, hwhole, hdecimal, htruth⟩
  · rintro ⟨rfl, hwhole, hdecimal, htruth⟩
    exact .plain hwhole hdecimal htruth

/-- What is no double shows the text that it was bound for. -/
theorem eq_of_ofLiteral_eq {raw raw' : String} {v : Value} (h : Value.ofLiteral raw = v)
    (h' : Value.ofLiteral raw' = v) (hdecimal : ¬ IsDecimalText raw) : raw = raw' := by
  cases ofLiteral_eq_iff.mp h with
  | whole hn =>
    rw [(canonicalInt_eq_some_iff.mp hn).1, (ofLiteral_eq_int_iff.mp h').1]
  | decimal hd => exact absurd (isDecimalText_iff.mpr ⟨_, hd⟩) hdecimal
  | truth hb => rw [hb, ofLiteral_eq_bool_iff.mp h']
  | plain => exact (ofLiteral_eq_text_iff.mp h').1

end RestQuery.Sql
