import Mathlib.Data.List.TakeWhile
import RestQuery.Proofs.Sql.Literal

/-!
# Literals through lenient readers

The readers of numbers take more than one text for a number: a plus sign, zeros in front, a point
without digits on one side, an exponent, and words for the infinite. A literal can be bound by
reading it and asking afterwards whether it is written in the one way that counts. For a whole
number this compares the text of what was read; for a decimal it is a list of tests on the text,
which let only digits and points pass, so that the reader has only the number of points left to
decide.
-/

namespace RestQuery.Sql

/-! ### Readers -/

def cutEitherSign : List Char → Bool × List Char
  | '-' :: rest => (true, rest)
  | '+' :: rest => (false, rest)
  | cs => (false, cs)

def readInt (cs : List Char) : Option Int :=
  let (negative, digits) := cutEitherSign cs
  if digits ≠ [] ∧ digits.all Char.isDigit then
    let n : Int := Text.natOfDigits digits
    let n := if negative then -n else n
    if -(2 ^ 63) ≤ n ∧ n < 2 ^ 63 then some n else none
  else none

inductive ReadDouble where
  | number (value : Double)
  | notANumber

def readExponent : List Char → Option Int
  | [] => some 0
  | c :: cs =>
    if c = 'e' ∨ c = 'E' then
      let (negative, digits) := cutEitherSign cs
      if digits ≠ [] ∧ digits.all Char.isDigit then
        let n : Int := Text.natOfDigits digits
        some (if negative then -n else n)
      else none
    else none

/-- Digits, of which some may stand behind a point, and an exponent. -/
def readNumber (negative : Bool) (cs : List Char) : Option Double :=
  let whole := cs.takeWhile Char.isDigit
  let (places, rest) := match cs.dropWhile Char.isDigit with
    | '.' :: more => (more.takeWhile Char.isDigit, more.dropWhile Char.isDigit)
    | rest => ([], rest)
  if whole ++ places = [] then none
  else (readExponent rest).map fun exponent =>
    .ofScientific negative (Text.natOfDigits (whole ++ places)) (exponent - places.length)

def readDouble (cs : List Char) : Option ReadDouble :=
  let (negative, rest) := cutEitherSign cs
  let word := String.ofList (rest.map Char.toLower)
  if word = "nan" then some .notANumber
  else if word = "inf" ∨ word = "infinity" then some (.number (.infinite negative))
  else (readNumber negative rest).map .number

/-! ### Tests -/

/-- The tests on the text of a decimal, whose minus sign does not count. -/
def looksDecimal (cs : List Char) : Bool :=
  let unsigned := (cutSign cs).2
  unsigned.contains '.' && unsigned.head? != some '.' && unsigned.getLast? != some '.' &&
    !(unsigned.head? == some '0' && unsigned.take 2 != ['0', '.']) &&
    unsigned.all fun c => c.isDigit || c == '.'

/-- The value for a literal that is read first and tested then. -/
def readLiteral (raw : String) : Value :=
  match (readInt raw.toList).filter fun n => toString n = raw with
  | some n => .int n
  | none =>
    match if looksDecimal raw.toList then readDouble raw.toList else none with
    | some (.number d) => .double d
    | _ =>
      if raw = "true" then .bool true
      else if raw = "false" then .bool false
      else .text raw

/-! ### Whole numbers -/

theorem cutEitherSign_append (negative : Bool) {cs : List Char}
    (h : ∀ c, cs.head? = some c → c.isDigit = true) :
    cutEitherSign (Double.sign negative ++ cs) = (negative, cs) := by
  cases negative with
  | true => rfl
  | false =>
    change cutEitherSign cs = _
    unfold cutEitherSign
    split
    · cases h '-' rfl
    · cases h '+' rfl
    · rfl

theorem isDigit_head_of_isWhole {ds : List Char} (h : Text.isWhole ds = true) (c : Char)
    (hc : ds.head? = some c) : c.isDigit = true :=
  all_isDigit_of_isWhole h c (List.mem_of_head? hc)

theorem readInt_toString {n : Int} (hlow : -(2 ^ 63) ≤ n) (hhigh : n < 2 ^ 63) :
    readInt (toString n).toList = some n := by
  have hwhole := Text.isWhole_toDigits n.natAbs
  have hall : (Nat.toDigits 10 n.natAbs).all Char.isDigit = true :=
    List.all_eq_true.mpr (all_isDigit_of_isWhole hwhole)
  have hvalue : (if decide (n < 0) = true then -(n.natAbs : Int) else n.natAbs) = n := by
    split
    · next h =>
      have hneg := of_decide_eq_true h
      omega
    · next h =>
      have hnonneg : ¬ n < 0 := by simpa using h
      omega
  rw [toList_toString, readInt, cutEitherSign_append _ (isDigit_head_of_isWhole hwhole)]
  simp only [Text.natOfDigits_toDigits, hvalue]
  rw [if_pos ⟨Nat.toDigits_ne_nil, hall⟩, if_pos ⟨hlow, hhigh⟩]

theorem range_of_readInt {cs : List Char} {n : Int} (h : readInt cs = some n) :
    -(2 ^ 63) ≤ n ∧ n < 2 ^ 63 := by
  unfold readInt at h
  obtain ⟨-, h⟩ := Option.ite_none_right_eq_some.mp h
  obtain ⟨hrange, hn⟩ := Option.ite_none_right_eq_some.mp h
  obtain rfl := Option.some.inj hn
  exact hrange

/-- A number is read from its own text and from others; the comparison leaves the former. -/
theorem filter_readInt (raw : String) :
    ((readInt raw.toList).filter fun n => toString n = raw) = canonicalInt raw.toList := by
  refine Option.ext fun n => ?_
  rw [Option.filter_eq_some_iff, canonicalInt_eq_some_iff, decide_eq_true_eq]
  constructor
  · rintro ⟨hread, htext⟩
    exact ⟨htext.symm, range_of_readInt hread⟩
  · rintro ⟨rfl, hlow, hhigh⟩
    exact ⟨readInt_toString hlow hhigh, rfl⟩

/-! ### Decimals -/

theorem readDouble_sign_append (negative : Bool) {cs : List Char} (hpoint : '.' ∈ cs)
    (hhead : ∀ c, cs.head? = some c → c.isDigit = true) :
    readDouble (Double.sign negative ++ cs) = (readNumber negative cs).map .number := by
  have hmem : '.' ∈ cs.map Char.toLower := List.mem_map.mpr ⟨'.', hpoint, rfl⟩
  have hword : ∀ word : String, '.' ∉ word.toList → String.ofList (cs.map Char.toLower) ≠ word := by
    rintro word hword rfl
    rw [String.toList_ofList] at hword
    exact hword hmem
  rw [readDouble, cutEitherSign_append negative hhead]
  simp only [hword "nan" (by decide), hword "inf" (by decide), hword "infinity" (by decide),
    or_self, if_false]

theorem span_digits {ds : List Char} (hds : ∀ d ∈ ds, d.isDigit = true) {rest : List Char}
    (hrest : ∀ c, rest.head? = some c → c.isDigit = false) :
    (ds ++ rest).takeWhile Char.isDigit = ds ∧ (ds ++ rest).dropWhile Char.isDigit = rest := by
  rw [List.takeWhile_append_of_pos hds, List.dropWhile_append_of_pos hds]
  cases rest with
  | nil => simp
  | cons c rest => simp [hrest c rfl]

theorem readNumber_append (negative : Bool) {whole : List Char}
    (hwhole : ∀ d ∈ whole, d.isDigit = true) (hne : whole ≠ []) (more : List Char) :
    readNumber negative (whole ++ '.' :: more) =
      (readExponent (more.dropWhile Char.isDigit)).map fun exponent =>
        .ofScientific negative (Text.natOfDigits (whole ++ more.takeWhile Char.isDigit))
          (exponent - (more.takeWhile Char.isDigit).length) := by
  obtain ⟨htake, hdrop⟩ := @span_digits _ hwhole ('.' :: more) (by rintro c ⟨⟩; rfl)
  simp only [readNumber, htake, hdrop]
  rw [if_neg (by simp [hne])]

theorem looksDecimal_iff {cs unsigned : List Char} {negative : Bool}
    (hcut : cutSign cs = (negative, unsigned)) :
    looksDecimal cs = true ↔
      '.' ∈ unsigned ∧ unsigned.head? ≠ some '.' ∧ unsigned.getLast? ≠ some '.' ∧
        (unsigned.head? = some '0' → unsigned.take 2 = ['0', '.']) ∧
        ∀ c ∈ unsigned, c.isDigit = true ∨ c = '.' := by
  simp [looksDecimal, hcut, and_assoc, imp_iff_not_or]

/-- A decimal passes the tests, and is read as the double nearest to it. -/
theorem IsDecimal.read {cs whole places : List Char} {negative : Bool}
    (h : IsDecimal cs negative whole places) :
    looksDecimal cs = true ∧ readDouble cs = some (.number (.ofScientific negative
      (Text.natOfDigits (whole ++ places)) (-(places.length : Int)))) := by
  obtain ⟨rfl, hwhole, hne, hall⟩ := h
  have hdigits := all_isDigit_of_isWhole hwhole
  have hplaces := List.all_eq_true.mp hall
  have hcut : cutSign (Double.sign negative ++ (whole ++ '.' :: places)) =
      (negative, whole ++ '.' :: places) := by
    cases negative with
    | true => rfl
    | false => exact cutSign_of_isWhole_append hwhole _
  obtain ⟨d, rest, rfl⟩ := List.exists_cons_of_ne_nil (Text.ne_nil_of_isWhole hwhole)
  have hhead : d.isDigit = true := hdigits d List.mem_cons_self
  constructor
  · rw [looksDecimal_iff hcut]
    refine ⟨by simp, ?_, ?_, ?_, ?_⟩
    · rintro ⟨⟩
      cases hhead
    · intro hlast
      have hmem : '.' ∈ places := by
        refine List.mem_of_getLast? ?_
        rwa [List.getLast?_append_of_ne_nil _ (by simp), List.getLast?_cons_of_ne_nil hne] at hlast
      cases hplaces '.' hmem
    · rintro ⟨⟩
      cases rest with
      | nil => rfl
      | cons e rest => simp [Text.isWhole] at hwhole
    · intro c hc
      rcases List.mem_append.mp hc with hc | hc
      · exact .inl (hdigits c hc)
      · rcases List.mem_cons.mp hc with rfl | hc
        · exact .inr rfl
        · exact .inl (hplaces c hc)
  · obtain ⟨htake, hdrop⟩ := @span_digits _ hplaces [] (by rintro c ⟨⟩)
    rw [List.append_nil] at htake hdrop
    rw [readDouble_sign_append negative (by simp) (by rintro c ⟨⟩; exact hhead),
      readNumber_append negative hdigits (by simp), htake, hdrop]
    simp [readExponent]

theorem exists_eq_append_point {cs : List Char} (hpoint : '.' ∈ cs)
    (hall : ∀ c ∈ cs, c.isDigit = true ∨ c = '.') :
    ∃ whole more, cs = whole ++ '.' :: more ∧ ∀ d ∈ whole, d.isDigit = true := by
  induction cs with
  | nil => cases hpoint
  | cons c cs ih =>
    obtain ⟨hc, hall⟩ := List.forall_mem_cons.mp hall
    by_cases hdot : c = '.'
    · exact ⟨[], cs, by rw [hdot]; rfl, by simp⟩
    · have hpoint : '.' ∈ cs := by
        rcases List.mem_cons.mp hpoint with heq | hpoint
        · exact absurd heq.symm hdot
        · exact hpoint
      obtain ⟨whole, more, rfl, hwhole⟩ := ih hpoint hall
      exact ⟨c :: whole, more, rfl, List.forall_mem_cons.mpr ⟨hc.resolve_right hdot, hwhole⟩⟩

theorem isDecimal_of_readDouble {cs : List Char} (hlooks : looksDecimal cs = true) {r : ReadDouble}
    (hread : readDouble cs = some r) :
    ∃ negative whole places, IsDecimal cs negative whole places := by
  cases hcut : cutSign cs with
  | mk negative unsigned =>
    obtain ⟨hpoint, hfirst, hlast, hzero, hall⟩ := (looksDecimal_iff hcut).mp hlooks
    have hhead : ∀ c, unsigned.head? = some c → c.isDigit = true := by
      intro c hc
      refine (hall c (List.mem_of_head? hc)).resolve_right ?_
      rintro rfl
      exact hfirst hc
    rw [eq_append_of_cutSign hcut, readDouble_sign_append negative hpoint hhead] at hread
    obtain ⟨whole, places, rfl, hwhole⟩ := exists_eq_append_point hpoint hall
    have hne : whole ≠ [] := by
      rintro rfl
      exact hfirst rfl
    rw [readNumber_append negative hwhole hne] at hread
    -- A second point would be left over in the place of an exponent.
    have hplaces : ∀ d ∈ places, d.isDigit = true := by
      rw [← List.dropWhile_eq_nil_iff]
      cases hover : places.dropWhile Char.isDigit with
      | nil => rfl
      | cons c more =>
        have hc : c ∈ places := (List.dropWhile_sublist _).mem (hover ▸ List.mem_cons_self)
        have hnot : c.isDigit ≠ true := by
          have hhead := List.head?_dropWhile_not Char.isDigit places
          simpa [hover] using hhead
        obtain rfl := (hall c (by simp [hc])).resolve_left hnot
        simp [hover, readExponent] at hread
    have hsome : places ≠ [] := by
      rintro rfl
      simp at hlast
    refine ⟨negative, whole, places, eq_append_of_cutSign hcut, ?_, hsome,
      List.all_eq_true.mpr hplaces⟩
    obtain ⟨d, rest, rfl⟩ := List.exists_cons_of_ne_nil hne
    have hd : d = '0' → rest = [] := by
      rintro rfl
      have htwo := hzero rfl
      cases rest with
      | nil => rfl
      | cons e rest =>
        obtain rfl : e = '.' := by simpa using htwo
        cases hwhole '.' (by simp)
    by_cases hdzero : d = '0'
    · rw [hd hdzero, Text.isWhole_singleton]
      exact hwhole d List.mem_cons_self
    · simp only [Text.isWhole, List.all_eq_true.mpr hwhole, bne_iff_ne.mpr hdzero, Bool.true_or,
        Bool.and_true]

theorem readDouble_tested (cs : List Char) :
    (if looksDecimal cs then readDouble cs else none) = (decimal cs).map .number := by
  cases hdecimal : decimal cs with
  | some d =>
    obtain ⟨negative, whole, places, h, rfl⟩ := decimal_eq_some_iff.mp hdecimal
    obtain ⟨hlooks, hread⟩ := h.read
    rw [if_pos hlooks, hread, Option.map_some]
  | none =>
    split
    · next hlooks =>
      cases hread : readDouble cs with
      | none => rfl
      | some r =>
        obtain ⟨negative, whole, places, h⟩ := isDecimal_of_readDouble hlooks hread
        rw [decimal_eq_some_iff.mpr ⟨negative, whole, places, h, rfl⟩] at hdecimal
        cases hdecimal
    · rfl

theorem ofLiteral_eq_readLiteral (raw : String) : Value.ofLiteral raw = readLiteral raw := by
  rw [readLiteral, filter_readInt, readDouble_tested, Value.ofLiteral]
  cases canonicalInt raw.toList <;> cases decimal raw.toList <;> rfl

/-! ### Classes of literals -/

/-- A literal is bound by the form of its text, which is what reading and testing leave: as a whole
number if it is the one decimal text of a number of 64 bits, as a double if it is a decimal, as a
truth value if it is written out, and otherwise as its text. The forms exclude each other, and only
decimals can be bound alike. -/
theorem literals_classified (raw : String) :
    Value.ofLiteral raw = readLiteral raw ∧
    (∀ n : Int, Value.ofLiteral raw = .int n ↔
      raw = toString n ∧ -(2 ^ 63) ≤ n ∧ n < 2 ^ 63) ∧
    ((∃ d, Value.ofLiteral raw = .double d) ↔ raw.toList ∈ decimals) ∧
    (∀ b : Bool, Value.ofLiteral raw = .bool b ↔ raw = toString b) ∧
    (Value.ofLiteral raw = .text raw ↔
      ¬ IsWholeText raw ∧ ¬ IsDecimalText raw ∧ ¬ IsTruthText raw) ∧
    ¬ (IsWholeText raw ∧ IsDecimalText raw) ∧ ¬ (IsWholeText raw ∧ IsTruthText raw) ∧
    ¬ (IsDecimalText raw ∧ IsTruthText raw) ∧
    ∀ raw', raw ≠ raw' → Value.ofLiteral raw = Value.ofLiteral raw' →
      IsDecimalText raw ∧ IsDecimalText raw' := by
  refine ⟨ofLiteral_eq_readLiteral raw, fun n => ofLiteral_eq_int_iff, ?_,
    fun b => ofLiteral_eq_bool_iff, ?_, fun h => not_isWholeText_of_isDecimalText h.2 h.1,
    fun h => not_isWholeText_of_isTruthText h.2 h.1,
    fun h => not_isDecimalText_of_isTruthText h.2 h.1, fun raw' hne halike => ?_⟩
  · simp only [ofLiteral_eq_double_iff]
    exact isDecimalText_iff.symm
  · rw [ofLiteral_eq_text_iff, eq_self, true_and]
  · constructor
    · by_contra hdecimal
      exact hne (eq_of_ofLiteral_eq halike rfl hdecimal)
    · by_contra hdecimal
      exact hne (eq_of_ofLiteral_eq halike.symm rfl hdecimal).symm

/-- Two texts of one double. -/
theorem literals_classified_of_one :
    "1.0" ≠ "1.00" ∧ Value.ofLiteral "1.0" = Value.ofLiteral "1.00" ∧
      IsDecimalText "1.0" ∧ IsDecimalText "1.00" := by
  have hne : "1.0" ≠ "1.00" := by decide
  have halike : Value.ofLiteral "1.0" = Value.ofLiteral "1.00" := by decide +kernel
  obtain ⟨-, -, -, -, -, -, -, -, hlost⟩ := literals_classified "1.0"
  exact ⟨hne, halike, hlost "1.00" hne halike⟩

end RestQuery.Sql
