import Mathlib.Data.List.Induction
import RestQuery.Text.Digits

/-!
# Decimal digits and the numbers they denote

Digits without a superfluous zero in front are the decimal text of the number that they denote, so
such a text is determined by its number. With zeros in front there are many texts of one number.
-/

namespace RestQuery.Text

theorem natOfDigits_eq (ds : List Char) : natOfDigits ds = Nat.ofDigitChars 10 ds 0 := by
  rw [natOfDigits, Nat.ofDigitChars_eq_foldl]
  congr 1
  funext n d
  rw [Nat.mul_comm]
  rfl

theorem natOfDigits_toDigits (n : Nat) : natOfDigits (Nat.toDigits 10 n) = n := by
  rw [natOfDigits_eq, Nat.ofDigitChars_ten_toDigits]

theorem natOfDigits_concat (ds : List Char) (d : Char) :
    natOfDigits (ds ++ [d]) = 10 * natOfDigits ds + (d.toNat - 48) := by
  rw [natOfDigits, List.foldl_append, List.foldl_cons, List.foldl_nil, Nat.mul_comm]
  rfl

/-! ### Single digits -/

theorem isDigit_iff {d : Char} : d.isDigit = true ↔ 48 ≤ d.toNat ∧ d.toNat ≤ 57 := by
  simp only [Char.isDigit, Bool.and_eq_true, decide_eq_true_eq, UInt32.le_iff_toNat_le]
  rfl

theorem digitChar_sub {d : Char} (h : d.isDigit = true) : (d.toNat - 48).digitChar = d := by
  obtain ⟨hlow, hhigh⟩ := isDigit_iff.mp h
  obtain ⟨k, hk, hd⟩ : ∃ k, k < 10 ∧ d.toNat = 48 + k := ⟨d.toNat - 48, by omega, by omega⟩
  have hchar : d = Char.ofNat (48 + k) := by rw [← hd, Char.ofNat_toNat]
  have hall : ∀ k < 10, (48 + k - 48).digitChar = Char.ofNat (48 + k) := by decide
  rw [hd, hall k hk, hchar]

/-! ### Digits without a superfluous zero -/

theorem isWhole_singleton (d : Char) : isWhole [d] = d.isDigit := by simp [isWhole]

/-- Another digit can follow unless the digits are a single zero. -/
theorem isWhole_concat {ds : List Char} (hds : ds ≠ []) (d : Char) :
    isWhole (ds ++ [d]) = true ↔ isWhole ds = true ∧ ds ≠ ['0'] ∧ d.isDigit = true := by
  cases ds with
  | nil => exact absurd rfl hds
  | cons c rest =>
    by_cases hzero : c = '0'
    · subst hzero
      cases rest <;> simp [isWhole]
    · simp [isWhole, hzero, and_assoc]

theorem ne_nil_of_isWhole {ds : List Char} (h : isWhole ds = true) : ds ≠ [] := by
  rintro rfl
  cases h

theorem isWhole_toDigits (n : Nat) : isWhole (Nat.toDigits 10 n) = true := by
  induction n using Nat.strongRecOn with
  | ind n ih =>
    have hdigit : ∀ d < 10, (Nat.digitChar d).isDigit = true := by decide
    rw [Nat.toDigits_eq_if (by decide)]
    split
    · next hsmall => rw [isWhole_singleton, hdigit n hsmall]
    · next hlarge =>
      have hzero : Nat.toDigits 10 (n / 10) ≠ ['0'] := by
        intro h
        have hvalue := congrArg natOfDigits h
        rw [natOfDigits_toDigits] at hvalue
        have hnone : natOfDigits ['0'] = 0 := rfl
        omega
      exact (isWhole_concat Nat.toDigits_ne_nil _).mpr
        ⟨ih (n / 10) (by omega), hzero, hdigit (n % 10) (by omega)⟩

theorem toDigits_natOfDigits {ds : List Char} (h : isWhole ds = true) :
    Nat.toDigits 10 (natOfDigits ds) = ds := by
  induction ds using List.reverseRecOn with
  | nil => cases h
  | append_singleton ds d ih =>
    rw [natOfDigits_concat]
    by_cases hds : ds = []
    · subst hds
      have hd : d.isDigit = true := by rwa [List.nil_append, isWhole_singleton] at h
      have hbelow : d.toNat - 48 < 10 := by
        have hrange := isDigit_iff.mp hd
        omega
      have hvalue : 10 * natOfDigits [] + (d.toNat - 48) = d.toNat - 48 := by simp [natOfDigits]
      rw [hvalue, Nat.toDigits_of_lt_base hbelow, digitChar_sub hd, List.nil_append]
    · obtain ⟨hwhole, hzero, hd⟩ := (isWhole_concat hds d).mp h
      have hbelow : d.toNat - 48 < 10 := by
        have hrange := isDigit_iff.mp hd
        omega
      -- The number is not zero: its text would be a single zero.
      have hpos : 0 < natOfDigits ds := by
        rw [Nat.pos_iff_ne_zero]
        intro hnone
        have htext := ih hwhole
        rw [hnone, Nat.toDigits_zero] at htext
        exact hzero htext.symm
      rw [← Nat.toDigits_append_toDigits (by decide) hpos hbelow, ih hwhole,
        Nat.toDigits_of_lt_base hbelow, digitChar_sub hd]

end RestQuery.Text
