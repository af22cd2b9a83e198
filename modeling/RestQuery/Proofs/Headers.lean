import RestQuery.Proofs.Dict
import RestQuery.Proofs.Text.Digits
import RestQuery.Proofs.Text.Urlencoded
import RestQuery.Reply

/-!
# Metadata in headers

A value is sent in a header if its text may stand there, and printable ASCII always may: numbers
are written in it, and so is any query. Under names that differ, no entry replaces another.
-/

namespace RestQuery

open Urlencoded

/-! ### Printable text -/

/-- Every character is a printable one of ASCII. -/
def Printable (s : String) : Prop := ∀ c ∈ s.toList, 32 ≤ c.toNat ∧ c.toNat < 127

theorem Printable.append {s t : String} (hs : Printable s) (ht : Printable t) :
    Printable (s ++ t) := fun c hc => by
  rw [String.toList_append] at hc
  exact (List.mem_append.mp hc).elim (hs c) (ht c)

theorem printable_printable (name : String) : Printable (printable name) := fun c hc => by
  rw [printable, String.toList_ofList, List.mem_filter, Bool.and_eq_true] at hc
  exact ⟨of_decide_eq_true hc.2.1, of_decide_eq_true hc.2.2⟩

theorem printable_toString (n : Nat) : Printable (toString n) := fun c hc => by
  have hdigit : c.isDigit = true :=
    Nat.isDigit_of_mem_toDigits (by decide) (by decide) (Nat.toList_repr.symm ▸ hc)
  have hbounds := Text.isDigit_iff.mp hdigit
  omega

theorem printable_of_mem_encodeOctet {b : UInt8} {c : Char} (h : c ∈ encodeOctet b) :
    32 ≤ c.toNat ∧ c.toNat < 127 := by
  have hdigits : ∀ n < 16, 32 ≤ (Text.hexDigit n).toNat ∧ (Text.hexDigit n).toNat < 127 := by
    decide
  have hb : b.toNat < 256 := b.toNat_lt
  unfold encodeOctet at h
  split at h
  · obtain rfl := List.mem_singleton.mp h
    decide
  · split at h
    · next hplain =>
      obtain rfl := List.mem_singleton.mp h
      rw [toNat_ofNat_octet]
      simp only [isPlain, Bool.or_eq_true, Bool.and_eq_true, beq_iff_eq, decide_eq_true_eq]
        at hplain
      omega
    · simp only [List.mem_cons, List.not_mem_nil, or_false] at h
      rcases h with rfl | rfl | rfl
      · decide
      · exact hdigits _ (by omega)
      · exact hdigits _ (by omega)

theorem printable_encode (pairs : List (String × String)) : Printable (encode pairs) := by
  have htext : ∀ (s : String), ∀ c ∈ encodeText s, 32 ≤ c.toNat ∧ c.toNat < 127 := by
    intro s c hc
    obtain ⟨b, -, hmem⟩ := List.mem_flatMap.mp hc
    exact printable_of_mem_encodeOctet hmem
  have hpair : ∀ pair, ∀ c ∈ encodePair pair, 32 ≤ c.toNat ∧ c.toNat < 127 := by
    intro pair c hc
    rcases List.mem_append.mp hc with hname | hvalue
    · exact htext pair.1 c hname
    · rcases List.mem_cons.mp hvalue with rfl | hvalue
      · decide
      · exact htext pair.2 c hvalue
  intro c hc
  rw [encode, String.toList_ofList] at hc
  induction pairs with
  | nil => cases hc
  | cons pair rest ih =>
    cases rest with
    | nil => exact hpair pair c hc
    | cons next rest =>
      rcases List.mem_append.mp hc with hfirst | hrest
      · exact hpair pair c hfirst
      · rcases List.mem_cons.mp hrest with rfl | hrest
        · decide
        · exact ih hrest

/-! ### Values -/

@[simp]
theorem headerText_ofNat (n : Nat) : headerText (.ofNat n) = toString n := String.ofList_toList

theorem headerValue_of_printable {value : Json} (h : Printable (headerText value)) :
    headerValue value = some (headerText value) := by
  have hall : (headerText value).toList.all isHeaderChar = true := by
    refine List.all_eq_true.mpr fun c hc => ?_
    obtain ⟨hlow, hhigh⟩ := h c hc
    have hne : c.toNat ≠ 127 := by omega
    simp [isHeaderChar, hlow, hne]
  exact if_pos hall

/-! ### Names -/

def smallName (title : String) : String := String.ofList (title.toList.map Char.toLower)

/-- The header that an entry of metadata is sent as: a count by its digits, a text as it is. -/
def headerOf (entry : String × Json) : String × String :=
  (smallName entry.1, match entry.2 with
    | .text s => s
    | .number (.int n) => toString n
    | value => value.write)

theorem headerOf_eq (entry : String × Json) :
    headerOf entry = (smallName entry.1, headerText entry.2) := by
  obtain ⟨title, value⟩ := entry
  match value with
  | .number (.int n) => exact congrArg _ String.ofList_toList.symm
  | .number (.double _) | .null | .bool _ | .text _ | .array _ | .object _ => rfl

/-- If every entry can be sent and their names differ, every entry is sent. -/
theorem perm_metaHeaders {entries : List (String × Json)}
    (hsent : ∀ entry ∈ entries, headerName entry.1 = some (smallName entry.1) ∧
      headerValue entry.2 = some (headerText entry.2))
    (hnames : (entries.map fun entry => smallName entry.1).Nodup) :
    (metaHeaders entries).Perm (entries.map headerOf) := by
  have hfold : metaHeaders entries = Dict.ofList (entries.map headerOf) := by
    rw [metaHeaders, Dict.ofList, List.foldl_map]
    refine List.foldl_ext _ _ _ fun headers entry hentry => ?_
    obtain ⟨hname, hvalue⟩ := hsent entry hentry
    simp only [addMetaHeader, hname, hvalue, headerOf_eq]
  rw [hfold]
  refine Dict.perm_ofList ?_
  rwa [List.map_map]

end RestQuery
