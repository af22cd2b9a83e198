import RestQuery.Proofs.Text.Dotted
import RestQuery.Proofs.Text.Utf8
import RestQuery.Urlencoded

/-!
# Pairs that are read back

An octet is written with characters that stand for nothing else: neither the separators nor, for the
octets that are written as themselves, a plus or a percent sign. So names and values are read as
they were before they were written, whatever characters they have, and so are lists of pairs.
-/

namespace RestQuery.Urlencoded

open Text

/-! ### Octets -/

theorem hexValue_hexDigit {n : Nat} (h : n < 16) : hexValue (hexDigit n) = some n := by
  have hall : ∀ n < 16, hexValue (hexDigit n) = some n := by decide
  exact hall n h

theorem toNat_ofNat_octet (b : UInt8) : (Char.ofNat b.toNat).toNat = b.toNat := by
  have hb : b.toNat < 256 := b.toNat_lt
  have hvalid : b.toNat.isValidChar := .inl (by omega)
  rw [Char.ofNat, dif_pos hvalid]
  rfl

/-- An octet that is written as itself is an ASCII character, and none with a meaning of its own. -/
theorem isPlain_bounds {b : UInt8} (h : isPlain b = true) :
    b.toNat < 128 ∧ b.toNat ≠ '+'.toNat ∧ b.toNat ≠ '%'.toNat ∧ b.toNat ≠ '&'.toNat ∧
      b.toNat ≠ '='.toNat := by
  simp only [isPlain, Bool.or_eq_true, Bool.and_eq_true, beq_iff_eq, decide_eq_true_eq] at h
  simp only [Char.reduceToNat]
  omega

theorem ofNat_octet_ne {b : UInt8} {c : Char} (h : b.toNat ≠ c.toNat) : Char.ofNat b.toNat ≠ c := by
  rintro rfl
  exact h (toNat_ofNat_octet b).symm

theorem decodeOctets_escaped (b : UInt8) (rest : List Char) :
    decodeOctets ('%' :: hexDigit (b.toNat / 16) :: hexDigit (b.toNat % 16) :: rest) =
      b :: decodeOctets rest := by
  have hb : b.toNat < 256 := b.toNat_lt
  have hvalue : b.toNat / 16 * 16 + b.toNat % 16 = b.toNat := by omega
  rw [decodeOctets, if_neg (by decide), if_pos rfl, hexValue_hexDigit (by omega),
    hexValue_hexDigit (by omega)]
  dsimp only
  rw [hvalue, UInt8.ofNat_toNat]

theorem decodeOctets_plain {b : UInt8} (h : isPlain b = true) (rest : List Char) :
    decodeOctets (Char.ofNat b.toNat :: rest) = b :: decodeOctets rest := by
  obtain ⟨hlt, hplus, hpercent, -⟩ := isPlain_bounds h
  have hsingle : String.utf8EncodeChar (Char.ofNat b.toNat) = [b] := by
    have hval : (Char.ofNat b.toNat).val.toNat = b.toNat := toNat_ofNat_octet b
    unfold String.utf8EncodeChar
    dsimp only
    rw [hval, if_pos (by omega), UInt8.ofNat_toNat]
  rw [decodeOctets.eq_def]
  dsimp only
  rw [if_neg (ofNat_octet_ne hplus), if_neg (ofNat_octet_ne hpercent), hsingle]
  rfl

theorem decodeOctets_encodeOctet (b : UInt8) (rest : List Char) :
    decodeOctets (encodeOctet b ++ rest) = b :: decodeOctets rest := by
  unfold encodeOctet
  split
  · next hblank =>
    have hb : b = 0x20 := UInt8.toNat_inj.mp hblank
    rw [hb, List.singleton_append, decodeOctets.eq_def]
    exact if_pos rfl
  · split
    · next hplain => exact decodeOctets_plain hplain rest
    · exact decodeOctets_escaped b rest

/-- What an octet is written with separates nothing. -/
theorem notMem_encodeOctet (b : UInt8) : '&' ∉ encodeOctet b ∧ '=' ∉ encodeOctet b := by
  have hdigits : ∀ n < 16, hexDigit n ≠ '&' ∧ hexDigit n ≠ '=' := by decide
  have hb : b.toNat < 256 := b.toNat_lt
  obtain ⟨hhigh, hhigh'⟩ := hdigits (b.toNat / 16) (by omega)
  obtain ⟨hlow, hlow'⟩ := hdigits (b.toNat % 16) (by omega)
  unfold encodeOctet
  split
  · decide
  · split
    · next hplain =>
      obtain ⟨-, -, -, hamp, heq⟩ := isPlain_bounds hplain
      exact ⟨by simpa using (ofNat_octet_ne hamp).symm, by simpa using (ofNat_octet_ne heq).symm⟩
    · simp [hhigh.symm, hhigh'.symm, hlow.symm, hlow'.symm]

/-! ### Names and values -/

theorem decodeText_encodeText (s : String) : decodeText (encodeText s) = s := by
  have hoctets : ∀ bs : List UInt8, decodeOctets (bs.flatMap encodeOctet) = bs := by
    intro bs
    induction bs with
    | nil => rfl
    | cons b bs ih => rw [List.flatMap_cons, decodeOctets_encodeOctet, ih]
  rw [decodeText, encodeText, hoctets, Utf8.decode_encode, String.ofList_toList]

theorem notMem_encodeText (s : String) : '&' ∉ encodeText s ∧ '=' ∉ encodeText s := by
  unfold encodeText
  constructor
  · rw [List.mem_flatMap]
    rintro ⟨b, -, hmem⟩
    exact (notMem_encodeOctet b).1 hmem
  · rw [List.mem_flatMap]
    rintro ⟨b, -, hmem⟩
    exact (notMem_encodeOctet b).2 hmem

/-! ### Pairs -/

theorem decodePair_encodePair (pair : String × String) : decodePair (encodePair pair) = pair := by
  rw [decodePair, encodePair, cutFirstChars_append_cons (notMem_encodeText pair.1).2]
  dsimp only
  rw [decodeText_encodeText, decodeText_encodeText]

theorem joinPairs_eq (pairs : List (String × String)) :
    joinPairs pairs = ['&'].intercalate (pairs.map encodePair) := by
  induction pairs with
  | nil => rfl
  | cons pair rest ih =>
    cases rest with
    | nil => rw [joinPairs, List.map_singleton, List.intercalate_singleton]
    | cons next rest =>
      rw [joinPairs, ih, List.map_cons, List.map_cons, List.map_cons, List.intercalate_cons_cons,
        List.append_assoc, List.singleton_append]

/-- Pairs that were written are read back, in their order. -/
theorem decode_encode (pairs : List (String × String)) : decode (encode pairs) = pairs := by
  rw [decode, encode, String.toList_ofList, joinPairs_eq]
  by_cases hne : pairs = []
  · subst hne
    decide
  · have hamp : ∀ pair ∈ pairs, '&' ∉ encodePair pair := by
      intro pair _
      simp [encodePair, (notMem_encodeText pair.1).1, (notMem_encodeText pair.2).1]
    have hfull : ∀ pair ∈ pairs, decide (encodePair pair ≠ []) = true := fun pair _ => by
      simp [encodePair]
    rw [splitWhere_intercalate (by simpa using hne) (List.forall_mem_map.mpr hamp),
      List.filter_eq_self.mpr (List.forall_mem_map.mpr hfull), List.map_map]
    exact (List.map_congr_left fun pair _ => decodePair_encodePair pair).trans (List.map_id pairs)

end RestQuery.Urlencoded
