import Mathlib.Logic.Basic
import RestQuery.Utf8

/-!
# Octets that are read back

The octets of a character open it with the number of octets that are owed, and each further octet
lies in the range that the one before it leaves. So no replacement character is read, and the bits
add up to the character.
-/

namespace RestQuery.Utf8

/-! ### What an octet opens -/

theorem open?_ascii {n : Nat} (h : n < 0x80) : open? n = ([Char.ofNat n], none) := if_pos h

theorem open?_two {n : Nat} (hlow : 0xC2 ≤ n) (hhigh : n < 0xE0) :
    open? n = ([], some ⟨1, 0x80, 0xBF, n - 0xC0⟩) := by
  rw [open?, if_neg (by omega), if_neg (by omega), if_pos hhigh]

theorem open?_three {n : Nat} (hlow : 0xE0 ≤ n) (hhigh : n < 0xF0) :
    open? n = ([], some ⟨2, if n = 0xE0 then 0xA0 else 0x80, if n = 0xED then 0x9F else 0xBF,
      n - 0xE0⟩) := by
  rw [open?, if_neg (by omega), if_neg (by omega), if_neg (by omega), if_pos hhigh]

theorem open?_four {n : Nat} (hlow : 0xF0 ≤ n) (hhigh : n < 0xF5) :
    open? n = ([], some ⟨3, if n = 0xF0 then 0x90 else 0x80, if n = 0xF4 then 0x8F else 0xBF,
      n - 0xF0⟩) := by
  rw [open?, if_neg (by omega), if_neg (by omega), if_neg (by omega), if_neg (by omega),
    if_pos hhigh]

/-! ### Reading an octet -/

theorem decodeFrom_open {n : Nat} (h : n < 256) (bs : List UInt8) :
    decodeFrom none (UInt8.ofNat n :: bs) = (open? n).1 ++ decodeFrom (open? n).2 bs := by
  rw [decodeFrom, UInt8.toNat_ofNat_of_lt' h]

/-- The last octet that is owed finishes the character. -/
theorem decodeFrom_last {low high value n : Nat} (h : n < 256) (hlow : low ≤ n) (hhigh : n ≤ high)
    (bs : List UInt8) :
    decodeFrom (some ⟨1, low, high, value⟩) (UInt8.ofNat n :: bs) =
      Char.ofNat (value * 64 + n % 64) :: decodeFrom none bs := by
  rw [decodeFrom, UInt8.toNat_ofNat_of_lt' h, if_pos ⟨hlow, hhigh⟩]
  rfl

theorem decodeFrom_next {owed low high value n : Nat} (h : n < 256) (hlow : low ≤ n)
    (hhigh : n ≤ high) (bs : List UInt8) :
    decodeFrom (some ⟨owed + 2, low, high, value⟩) (UInt8.ofNat n :: bs) =
      decodeFrom (some ⟨owed + 1, 0x80, 0xBF, value * 64 + n % 64⟩) bs := by
  have hmore : ¬ owed + 2 ≤ 1 := by omega
  rw [decodeFrom, UInt8.toNat_ofNat_of_lt' h, if_pos ⟨hlow, hhigh⟩]
  exact if_neg hmore

/-! ### The octets of a character -/

theorem decodeFrom_two {v : Nat} (hlow : 0x80 ≤ v) (hhigh : v ≤ 0x7FF) (bs : List UInt8) :
    decodeFrom none ([UInt8.ofNat (v / 64 % 32 + 192), UInt8.ofNat (v % 64 + 128)] ++ bs) =
      Char.ofNat v :: decodeFrom none bs := by
  have hvalue : (v / 64 % 32 + 192 - 0xC0) * 64 + (v % 64 + 128) % 64 = v := by omega
  rw [List.cons_append, decodeFrom_open (by omega), open?_two (by omega) (by omega)]
  change decodeFrom (some _) (UInt8.ofNat (v % 64 + 128) :: bs) = _
  rw [decodeFrom_last (by omega) (by omega) (by omega), hvalue]

/-- The range of the second octet leaves out what fits into two octets, and the surrogates. -/
theorem decodeFrom_three {v : Nat} (hlow : 0x800 ≤ v) (hhigh : v ≤ 0xFFFF)
    (hvalid : v < 0xD800 ∨ 0xDFFF < v) (bs : List UInt8) :
    decodeFrom none ([UInt8.ofNat (v / 4096 % 16 + 224), UInt8.ofNat (v / 64 % 64 + 128),
      UInt8.ofNat (v % 64 + 128)] ++ bs) = Char.ofNat v :: decodeFrom none bs := by
  have hvalue : ((v / 4096 % 16 + 224 - 0xE0) * 64 + (v / 64 % 64 + 128) % 64) * 64 +
      (v % 64 + 128) % 64 = v := by omega
  rw [List.cons_append, decodeFrom_open (by omega), open?_three (by omega) (by omega)]
  change decodeFrom (some _) (UInt8.ofNat (v / 64 % 64 + 128) :: UInt8.ofNat (v % 64 + 128) :: bs) =
    _
  rw [decodeFrom_next (by omega) (by split <;> omega) (by split <;> omega),
    decodeFrom_last (by omega) (by omega) (by omega), hvalue]

/-- The range of the second octet leaves out what fits into three octets, and what is too large. -/
theorem decodeFrom_four {v : Nat} (hlow : 0x10000 ≤ v) (hhigh : v < 0x110000) (bs : List UInt8) :
    decodeFrom none ([UInt8.ofNat (v / 262144 % 8 + 240), UInt8.ofNat (v / 4096 % 64 + 128),
      UInt8.ofNat (v / 64 % 64 + 128), UInt8.ofNat (v % 64 + 128)] ++ bs) =
      Char.ofNat v :: decodeFrom none bs := by
  have hvalue : (((v / 262144 % 8 + 240 - 0xF0) * 64 + (v / 4096 % 64 + 128) % 64) * 64 +
      (v / 64 % 64 + 128) % 64) * 64 + (v % 64 + 128) % 64 = v := by omega
  rw [List.cons_append, decodeFrom_open (by omega), open?_four (by omega) (by omega)]
  change decodeFrom (some _) (UInt8.ofNat (v / 4096 % 64 + 128) ::
    UInt8.ofNat (v / 64 % 64 + 128) :: UInt8.ofNat (v % 64 + 128) :: bs) = _
  rw [decodeFrom_next (by omega) (by split <;> omega) (by split <;> omega),
    decodeFrom_next (by omega) (by omega) (by omega),
    decodeFrom_last (by omega) (by omega) (by omega), hvalue]

theorem decodeFrom_encodeChar (c : Char) (bs : List UInt8) :
    decodeFrom none (String.utf8EncodeChar c ++ bs) = c :: decodeFrom none bs := by
  have hvalid : c.val.toNat < 0xD800 ∨ 0xDFFF < c.val.toNat ∧ c.val.toNat < 0x110000 := c.valid
  have hchar : Char.ofNat c.val.toNat = c := Char.ofNat_toNat c
  refine Eq.trans ?_ (congrArg (· :: decodeFrom none bs) hchar)
  unfold String.utf8EncodeChar
  dsimp only
  generalize c.val.toNat = v at hvalid
  split
  · rw [List.singleton_append, decodeFrom_open (by omega), open?_ascii (by omega)]
    rfl
  · split
    · exact decodeFrom_two (by omega) (by omega) bs
    · split
      · exact decodeFrom_three (by omega) (by omega) (by omega) bs
      · exact decodeFrom_four (by omega) (by omega) bs

/-- The octets of a text are read as this text. -/
theorem decode_encode (cs : List Char) : decode (encode cs) = cs := by
  unfold decode encode
  induction cs with
  | nil => rfl
  | cons c cs ih => rw [List.flatMap_cons, decodeFrom_encodeChar, ih]

end RestQuery.Utf8
