import Mathlib.Algebra.Group.Nat.Defs
import Mathlib.Order.Bounds.Basic
import RestQuery.Proofs.AgreeOn
import RestQuery.Proofs.Gather
import RestQuery.Proofs.Parameters
import RestQuery.Proofs.Parsed
import RestQuery.Proofs.Text.Digits
import RestQuery.Proofs.Text.Listed

/-!
# Pages and their windows

The numbers of a page are whole numbers of 64 bits, and its offset has to be a signed one: a page
is accepted exactly if the numbers that its parameters denote are in these ranges, as integers.
Pages of one size that are asked for by their numbers show disjoint windows of rows, without a gap
before the last of them.
-/

namespace RestQuery

/-! ### Numerals -/

/-- Decimal digits denote a number; a plus sign may stand in front of them. -/
def Unsigned (cs : List Char) (n : Nat) : Prop :=
  ∃ plus digits, cs = plus ++ digits ∧ (plus = [] ∨ plus = ['+']) ∧ digits ≠ [] ∧
    (∀ d ∈ digits, d.isDigit = true) ∧ Nat.ofDigitChars 10 digits 0 = n

/-- A text denotes a number by its digits, which may stand between blanks. -/
def Numeral (value : String) (n : Nat) : Prop :=
  ∃ before core after, value.toList = before ++ core ++ after ∧
    (∀ c ∈ before, Text.isBlank c = true) ∧ (∀ c ∈ after, Text.isBlank c = true) ∧
    Unsigned core n

theorem unsigned_toDigits (n : Nat) : Unsigned (Nat.toDigits 10 n) n := by
  have hdigits : ∀ d ∈ Nat.toDigits 10 n, d.isDigit = true := fun d hd =>
    Nat.isDigit_of_mem_toDigits (by decide) (by decide) hd
  exact ⟨[], _, rfl, .inl rfl, Nat.toDigits_ne_nil, hdigits, Nat.ofDigitChars_ten_toDigits⟩

theorem numeral_toString (n : Nat) : Numeral (toString n) n := by
  refine ⟨[], Nat.toDigits 10 n, [], ?_, nofun, nofun, unsigned_toDigits n⟩
  rw [Nat.toString_eq_repr, Nat.toList_repr, List.nil_append, List.append_nil]

theorem Unsigned.not_isBlank {cs : List Char} {n : Nat} (h : Unsigned cs n) :
    ∀ c ∈ cs, Text.isBlank c = false := by
  have hplus : Text.isBlank '+' = false := by decide
  obtain ⟨plus, digits, rfl, hsign, -, hdigits, -⟩ := h
  intro c hc
  rcases List.mem_append.mp hc with hc | hc
  · rcases hsign with rfl | rfl
    · cases hc
    · rwa [List.mem_singleton.mp hc]
  · exact Text.isBlank_of_isDigit (hdigits c hc)

namespace PageClause

def digitsOf (cs : List Char) : List Char :=
  match cs with
  | '+' :: rest => rest
  | _ => cs

theorem natOfChars_eq (cs : List Char) :
    natOfChars cs =
      if digitsOf cs ≠ [] ∧ (digitsOf cs).all Char.isDigit then
        some (Text.natOfDigits (digitsOf cs))
      else none := rfl

theorem digitsOf_eq_iff {cs digits : List Char} (h : ∀ d ∈ digits, d.isDigit = true) :
    digitsOf cs = digits ↔ ∃ plus, (plus = [] ∨ plus = ['+']) ∧ cs = plus ++ digits := by
  have hplus : Char.isDigit '+' = false := by decide
  constructor
  · rintro rfl
    unfold digitsOf
    split
    · exact ⟨['+'], .inr rfl, rfl⟩
    · exact ⟨[], .inl rfl, rfl⟩
  · rintro ⟨plus, rfl | rfl, rfl⟩
    · unfold digitsOf
      split
      · have hdigit := h '+' List.mem_cons_self
        rw [hplus] at hdigit
        cases hdigit
      · rfl
    · rfl

theorem natOfChars_eq_some_iff {cs : List Char} {n : Nat} :
    natOfChars cs = some n ↔ Unsigned cs n := by
  rw [natOfChars_eq, Option.ite_none_right_eq_some, Option.some_inj, List.all_eq_true,
    Text.natOfDigits_eq]
  constructor
  · rintro ⟨⟨hne, hdigits⟩, hn⟩
    obtain ⟨plus, hplus, hcs⟩ := (digitsOf_eq_iff hdigits).mp rfl
    exact ⟨plus, digitsOf cs, hcs, hplus, hne, hdigits, hn⟩
  · rintro ⟨plus, digits, hcs, hplus, hne, hdigits, hn⟩
    rw [(digitsOf_eq_iff hdigits).mpr ⟨plus, hplus, hcs⟩]
    exact ⟨⟨hne, hdigits⟩, hn⟩

theorem natOfChars_trimChars_iff {value : String} {n : Nat} :
    natOfChars (Text.trimChars value.toList) = some n ↔ Numeral value n := by
  rw [natOfChars_eq_some_iff]
  constructor
  · intro h
    obtain ⟨before, after, hvalue, hbefore, hafter⟩ :=
      Text.exists_eq_append_trimChars value.toList
    exact ⟨before, _, after, hvalue, hbefore, hafter, h⟩
  · rintro ⟨before, core, after, hvalue, hbefore, hafter, h⟩
    rwa [hvalue, Text.trimChars_of_blanks hbefore h.not_isBlank hafter]

end PageClause

theorem Numeral.unique {value : String} {m n : Nat} (hm : Numeral value m)
    (hn : Numeral value n) : m = n := by
  rw [← PageClause.natOfChars_trimChars_iff] at hm hn
  exact Option.some.inj (hm.symm.trans hn)

namespace PageClause

variable {ctx : Context} {ps : Parameters}

theorem number_eq_ok_iff {what value : String} {n : Nat} :
    number what value = .ok n ↔ Numeral value n ∧ n ≤ 2 ^ 64 - 1 := by
  have hbound : wordBound = 2 ^ 64 := rfl
  rw [← natOfChars_trimChars_iff, number]
  cases natOfChars (Text.trimChars value.toList) with
  | none => simp
  | some m =>
    dsimp only
    split
    · next hsmall =>
      rw [Except.ok.injEq, Option.some_inj]
      omega
    · next hlarge =>
      rw [Option.some_inj]
      simp only [reduceCtorEq, false_iff]
      omega

theorem pageNumber_eq_ok_iff {value : String} {n : Nat} :
    pageNumber value = .ok n ↔ Numeral value n ∧ n ≤ 2 ^ 64 - 1 ∧ 1 ≤ n := by
  rw [pageNumber, bind_eq_ok_iff]
  simp only [number_eq_ok_iff]
  constructor
  · rintro ⟨m, ⟨hm, hsmall⟩, h⟩
    split at h
    · cases h
    · next hpos =>
      obtain rfl := Except.ok.inj h
      exact ⟨hm, hsmall, Nat.one_le_iff_ne_zero.mpr hpos⟩
  · rintro ⟨hn, hsmall, hpos⟩
    exact ⟨n, ⟨hn, hsmall⟩, if_neg (Nat.one_le_iff_ne_zero.mp hpos)⟩

/-! ### What is accepted -/

def AsksSize (ctx : Context) (ps : Parameters) (size : Nat) : Prop :=
  match (ps.get? (ctx.settings.param "limit")).or (ps.get? (ctx.settings.param "pageSize")) with
  | some value => Numeral value size ∧ size ≤ 2 ^ 64 - 1
  | none => size = ctx.settings.defaultPageSize

/-- The offset that the parameters give, by itself or by the number of a page, if any. -/
def AsksOffset (ctx : Context) (ps : Parameters) (size : Nat) (offset : Option Nat) : Prop :=
  match ps.get? (ctx.settings.param "offset"), ps.get? (ctx.settings.param "page") with
  | some value, _ => ∃ n, Numeral value n ∧ n ≤ 2 ^ 63 - 1 ∧ offset = some n
  | none, some value =>
    ∃ n, (Numeral value n ∧ n ≤ 2 ^ 64 - 1 ∧ 1 ≤ n) ∧ (n - 1) * size ≤ 2 ^ 63 - 1 ∧
      offset = some ((n - 1) * size)
  | none, none => offset = none

/-- The size and the offset that acceptable parameters ask for. -/
structure Asks (ctx : Context) (ps : Parameters) (size : Nat) (offset : Option Nat) : Prop where
  asksSize : AsksSize ctx ps size
  allowed : size ≤ ctx.settings.maxPageSize
  asksOffset : AsksOffset ctx ps size offset

def asksNumber (ctx : Context) (ps : Parameters) : Bool :=
  (ps.get? (ctx.settings.param "offset")).isNone && (ps.get? (ctx.settings.param "page")).isSome

theorem sizeOf_eq_ok_iff {size : Nat} :
    sizeOf ctx ps = .ok size ↔ AsksSize ctx ps size ∧ size ≤ ctx.settings.maxPageSize := by
  rw [AsksSize, sizeOf, Context.param?_pair]
  have hcheck : ∀ given : Nat,
      (if given > ctx.settings.maxPageSize then
        Except.error (.page (.sizeTooLarge ctx.settings.maxPageSize given))
      else Except.ok given : Except Failure Nat) = .ok size ↔
        given = size ∧ size ≤ ctx.settings.maxPageSize := by
    intro given
    split
    · next hlarge =>
      simp only [reduceCtorEq, false_iff]
      omega
    · next hsmall =>
      rw [Except.ok.injEq]
      omega
  cases (ps.get? (ctx.settings.param "limit")).or (ps.get? (ctx.settings.param "pageSize")) with
  | none =>
    dsimp only
    rw [bind_eq_ok_iff]
    simp [hcheck, eq_comm]
  | some value =>
    dsimp only
    rw [bind_eq_ok_iff]
    simp [hcheck, number_eq_ok_iff, and_assoc]

theorem asks_iff {size : Nat} {offset : Option Nat} :
    Asks ctx ps size offset ↔ sizeOf ctx ps = .ok size ∧ AsksOffset ctx ps size offset := by
  rw [sizeOf_eq_ok_iff]
  exact ⟨fun h => ⟨⟨h.asksSize, h.allowed⟩, h.asksOffset⟩, fun h => ⟨h.1.1, h.1.2, h.2⟩⟩

variable {start clause : PageClause} {size : Nat}

theorem match_eq_accept_iff {x : Except Failure Nat} {next : Nat → Gathered PageClause} :
    (match x with
      | .error failure => Gathered.refuse start failure
      | .ok n => next n) = .accept clause ↔ ∃ n, x = .ok n ∧ next n = .accept clause := by
  cases x with
  | error failure => simp
  | ok n => simp

theorem place_eq_accept_iff {offset : Option Nat} :
    start.place size offset = .accept clause ↔
      (∀ n ∈ offset, n ≤ 2 ^ 63 - 1) ∧ clause = ⟨some size, offset, start.pageDriven⟩ := by
  unfold place
  cases offset with
  | none => simp [eq_comm]
  | some n =>
    have hoffset : (∀ m ∈ some n, m ≤ 2 ^ 63 - 1) ↔ n ≤ greatestOffset := by
      simp [greatestOffset, intBound]
    dsimp only
    rw [hoffset]
    split
    · next hlarge => simp [Nat.not_le.mpr hlarge]
    · next hsmall => simp [Nat.not_lt.mp hsmall, eq_comm]

/-- The offset of a page is tested twice, for a word and for a signed number; the second test
counts. -/
theorem place_number_eq_accept_iff {n : Nat} :
    (if (n - 1) * size < wordBound then start.place size (some ((n - 1) * size))
      else .refuse start (.page (.pageOutOfRange n))) = .accept clause ↔
      (n - 1) * size ≤ 2 ^ 63 - 1 ∧
        clause = ⟨some size, some ((n - 1) * size), start.pageDriven⟩ := by
  have hbound : wordBound = 2 ^ 64 := rfl
  split
  · rw [place_eq_accept_iff]
    simp
  · next hlarge =>
    have hrefused : ¬ (n - 1) * size ≤ 2 ^ 63 - 1 := by omega
    simp only [Gathered.refuse_ne_accept, hrefused, false_and]

/-- A page is accepted exactly if it asks for a size and an offset in their ranges. -/
theorem accept_iff_asks :
    read ctx ps start = .accept clause ↔
      ∃ size offset, Asks ctx ps size offset ∧
        clause = ⟨some size, offset, start.pageDriven || asksNumber ctx ps⟩ := by
  unfold read
  refine match_eq_accept_iff.trans ?_
  simp only [asks_iff, and_assoc, exists_and_left]
  refine exists_congr fun size => and_congr_right fun _ => ?_
  rw [Context.param?_singleton, Context.param?_singleton]
  unfold AsksOffset asksNumber
  cases ps.get? (ctx.settings.param "offset") with
  | some value =>
    dsimp only
    refine match_eq_accept_iff.trans ?_
    simp only [number_eq_ok_iff, place_eq_accept_iff]
    constructor
    · rintro ⟨n, ⟨hn, -⟩, hsmall, rfl⟩
      exact ⟨some n, ⟨n, hn, hsmall n rfl, rfl⟩, by simp⟩
    · rintro ⟨-, ⟨n, hn, hsmall, rfl⟩, rfl⟩
      exact ⟨n, ⟨hn, by omega⟩, by simpa using hsmall, by simp⟩
  | none =>
    cases ps.get? (ctx.settings.param "page") with
    | none =>
      dsimp only
      rw [place_eq_accept_iff]
      simp
    | some value =>
      dsimp only
      refine match_eq_accept_iff.trans ?_
      simp only [pageNumber_eq_ok_iff, place_number_eq_accept_iff]
      constructor
      · rintro ⟨n, hn, hsmall, rfl⟩
        exact ⟨_, ⟨n, hn, hsmall, rfl⟩, by simp⟩
      · rintro ⟨-, ⟨n, hn, hsmall, rfl⟩, rfl⟩
        exact ⟨n, hn, hsmall, by simp⟩

theorem AsksSize.unique {size' : Nat} (h : AsksSize ctx ps size) (h' : AsksSize ctx ps size') :
    size = size' := by
  unfold AsksSize at h h'
  split at h
  · next value hvalue =>
    rw [hvalue] at h'
    exact h.1.unique h'.1
  · next hnone =>
    rw [hnone] at h'
    exact h.trans h'.symm

theorem apply_read {offset : Option Nat} (h : Asks ctx ps size offset) (start : PageClause)
    (plan : Plan) :
    (read ctx ps start).state.apply plan = { plan with limit := some size, offset := offset } := by
  rw [accept_iff_asks.mpr ⟨size, offset, h, rfl⟩]
  rfl

theorem refusal_eq_none_iff :
    (read ctx ps start).refusal = none ↔ ∃ size offset, Asks ctx ps size offset := by
  constructor
  · intro h
    have haccept : read ctx ps start = .accept (read ctx ps start).state := by
      rw [Gathered.accept, ← h]
    obtain ⟨size, offset, hasks, -⟩ := accept_iff_asks.mp haccept
    exact ⟨size, offset, hasks⟩
  · rintro ⟨size, offset, hasks⟩
    rw [accept_iff_asks.mpr ⟨size, offset, hasks, rfl⟩]
    rfl

/-! ### Windows of rows -/

def numbering (ctx : Context) (ps : Parameters) (n : Nat) : Parameters :=
  ps.insert (ctx.settings.param "page") (toString n)

/-- The row of an index is in the window of a plan. -/
def Window (plan : Plan) (index : Nat) : Prop :=
  ∃ offset size, plan.offset = some offset ∧ plan.limit = some size ∧
    offset ≤ index ∧ index < offset + size

/-- A page that is asked for by its number is accepted and shows the row of an index. -/
def Shows (ctx : Context) (ps : Parameters) (start : PageClause) (plan : Plan) (n index : Nat) :
    Prop :=
  (read ctx (numbering ctx ps n) start).refusal = none ∧
    Window ((read ctx (numbering ctx ps n) start).state.apply plan) index

section

variable (hoffset : ps.get? (ctx.settings.param "offset") = none) (hsize : AsksSize ctx ps size)
  (hallowed : size ≤ ctx.settings.maxPageSize)

include hoffset hsize hallowed

theorem asks_numbering_iff {n size' : Nat} {offset : Option Nat} :
    Asks ctx (numbering ctx ps n) size' offset ↔
      size' = size ∧ (n ≤ 2 ^ 64 - 1 ∧ 1 ≤ n) ∧ (n - 1) * size ≤ 2 ^ 63 - 1 ∧
        offset = some ((n - 1) * size) := by
  have hother : ∀ name ≠ "page", (numbering ctx ps n).get? (ctx.settings.param name) =
      ps.get? (ctx.settings.param name) := fun name hname =>
    ps.get?_insert_of_ne (fun heq => hname (Settings.param_inj.mp heq)) _
  have hpage : (numbering ctx ps n).get? (ctx.settings.param "page") = some (toString n) :=
    ps.get?_insert_self _ _
  have hasks : ∀ given, AsksSize ctx (numbering ctx ps n) given ↔ AsksSize ctx ps given := by
    intro given
    rw [AsksSize, AsksSize, hother "limit" (by decide), hother "pageSize" (by decide)]
  have hnumber : ∀ {size : Nat}, AsksOffset ctx (numbering ctx ps n) size offset ↔
      (n ≤ 2 ^ 64 - 1 ∧ 1 ≤ n) ∧ (n - 1) * size ≤ 2 ^ 63 - 1 ∧
        offset = some ((n - 1) * size) := by
    intro size
    rw [AsksOffset, hother "offset" (by decide), hoffset, hpage]
    constructor
    · rintro ⟨m, ⟨hm, hrange⟩, h⟩
      obtain rfl := hm.unique (numeral_toString n)
      exact ⟨hrange, h⟩
    · rintro ⟨hrange, h⟩
      exact ⟨n, ⟨numeral_toString n, hrange⟩, h⟩
  constructor
  · intro h
    obtain rfl := ((hasks _).mp h.asksSize).unique hsize
    exact ⟨rfl, hnumber.mp h.asksOffset⟩
  · rintro ⟨rfl, h⟩
    exact ⟨(hasks _).mpr hsize, hallowed, hnumber.mpr h⟩

theorem accepts_numbering_iff {n : Nat} :
    (read ctx (numbering ctx ps n) start).refusal = none ↔
      (n ≤ 2 ^ 64 - 1 ∧ 1 ≤ n) ∧ (n - 1) * size ≤ 2 ^ 63 - 1 := by
  rw [refusal_eq_none_iff]
  simp only [asks_numbering_iff hoffset hsize hallowed]
  constructor
  · rintro ⟨-, -, -, hrange, hsmall, -⟩
    exact ⟨hrange, hsmall⟩
  · rintro ⟨hrange, hsmall⟩
    exact ⟨size, _, rfl, hrange, hsmall, rfl⟩

/-- The window of a page begins where the windows of the pages before it end. -/
theorem shows_iff {plan : Plan} {n index : Nat} (hpos : 0 < size) :
    Shows ctx ps start plan n index ↔
      n = index / size + 1 ∧ index / size * size ≤ 2 ^ 63 - 1 := by
  have hwindow : ∀ k, k * size ≤ index ∧ index < k * size + size ↔ index / size = k := by
    intro k
    rw [Nat.div_eq_iff hpos]
    omega
  constructor
  · rintro ⟨haccept, hshows⟩
    obtain ⟨⟨hword, hn⟩, hsmall⟩ := (accepts_numbering_iff hoffset hsize hallowed).mp haccept
    have hasks : Asks ctx (numbering ctx ps n) size (some ((n - 1) * size)) :=
      (asks_numbering_iff hoffset hsize hallowed).mpr ⟨rfl, ⟨hword, hn⟩, hsmall, rfl⟩
    rw [apply_read hasks] at hshows
    obtain ⟨offset, given, hoff, hgiven, hrange⟩ := hshows
    obtain rfl := Option.some.inj hoff
    obtain rfl := Option.some.inj hgiven
    have hindex : index / size = n - 1 := (hwindow _).mp hrange
    exact ⟨by omega, hindex ▸ hsmall⟩
  · rintro ⟨rfl, hsmall⟩
    have hword : index / size + 1 ≤ 2 ^ 64 - 1 := by
      have hle : index / size ≤ index / size * size := Nat.le_mul_of_pos_right _ hpos
      omega
    have hasks : Asks ctx (numbering ctx ps (index / size + 1)) size
        (some (index / size * size)) :=
      (asks_numbering_iff hoffset hsize hallowed).mpr
        ⟨rfl, ⟨hword, Nat.succ_pos _⟩, hsmall, rfl⟩
    refine ⟨refusal_eq_none_iff.mpr ⟨_, _, hasks⟩, ?_⟩
    rw [apply_read hasks]
    exact ⟨_, size, rfl, rfl, (hwindow _).mpr rfl⟩

/-- The accepted pages are those up to one that still begins at a signed number. -/
theorem isGreatest_accepted (hpos : 0 < size) :
    IsGreatest {n | (read ctx (numbering ctx ps n) start).refusal = none}
      ((2 ^ 63 - 1) / size + 1) := by
  have hle : (2 ^ 63 - 1) / size ≤ 2 ^ 63 - 1 := Nat.div_le_self _ _
  constructor
  · refine (accepts_numbering_iff hoffset hsize hallowed).mpr
      ⟨⟨by omega, Nat.succ_pos _⟩, ?_⟩
    rw [Nat.add_sub_cancel]
    exact Nat.div_mul_le_self _ _
  · intro n hn
    obtain ⟨-, hsmall⟩ := (accepts_numbering_iff hoffset hsize hallowed).mp hn
    have hbefore : n - 1 ≤ (2 ^ 63 - 1) / size := (Nat.le_div_iff_mul_le hpos).mpr hsmall
    omega

end

/-- Pages are accepted exactly in the ranges of their numbers; those that are accepted by their
numbers show disjoint windows, which leave out no row before the last of them ends. -/
theorem windows_exact (ctx : Context) (ps : Parameters) (start : PageClause) (plan : Plan) :
    ((read ctx ps start).refusal = none ↔ ∃ size offset, Asks ctx ps size offset) ∧
    (∀ size offset, Asks ctx ps size offset →
      (read ctx ps start).state.apply plan =
        { plan with limit := some size, offset := offset }) ∧
    ∀ size, 0 < size → AsksSize ctx ps size → size ≤ ctx.settings.maxPageSize →
      ps.get? (ctx.settings.param "offset") = none →
      (∀ m n index, Shows ctx ps start plan m index → Shows ctx ps start plan n index → m = n) ∧
      ∃ last, IsGreatest {n | (read ctx (numbering ctx ps n) start).refusal = none} last ∧
        ∀ index, (∃ n, Shows ctx ps start plan n index) ↔ index < last * size := by
  refine ⟨refusal_eq_none_iff, fun size offset hasks => apply_read hasks start plan,
    fun size hpos hsize hallowed hoffset => ⟨fun m n index hm hn => ?_, _,
      isGreatest_accepted hoffset hsize hallowed hpos, fun index => ?_⟩⟩
  · rw [shows_iff hoffset hsize hallowed hpos] at hm hn
    exact hm.1.trans hn.1.symm
  · simp only [shows_iff hoffset hsize hallowed hpos, exists_eq_left]
    rw [← Nat.le_div_iff_mul_le hpos, ← Nat.div_lt_iff_lt_mul hpos, Nat.lt_succ_iff]

def listing : Context :=
  ⟨.default, .default, .empty, .ofTable "posts" "posts", .default⟩

/-- The third page of ten rows, the size written with a blank and a plus sign. -/
def thirdOfTen : Parameters := ⟨[("limit", " +10"), ("page", "3")]⟩

theorem asks_thirdOfTen : Asks listing thirdOfTen 10 (some 20) where
  asksSize := by
    have hlimit : thirdOfTen.get? (listing.settings.param "limit") = some " +10" := by decide
    have hblank : ∀ c ∈ [' '], Text.isBlank c = true := List.forall_mem_singleton.mpr rfl
    have hdigits : ∀ d ∈ ['1', '0'], d.isDigit = true := by simp
    have hten : Unsigned ['+', '1', '0'] 10 :=
      ⟨['+'], ['1', '0'], rfl, .inr rfl, nofun, hdigits, rfl⟩
    rw [AsksSize, hlimit, Option.some_or]
    exact ⟨⟨[' '], _, [], rfl, hblank, nofun, hten⟩, by omega⟩
  allowed := by decide
  asksOffset := by
    have hoffset : thirdOfTen.get? (listing.settings.param "offset") = none := by decide
    have hpage : thirdOfTen.get? (listing.settings.param "page") = some "3" := by decide
    have hthree : Numeral "3" 3 := numeral_toString 3
    rw [AsksOffset, hoffset, hpage]
    exact ⟨3, ⟨hthree, by omega, by omega⟩, by omega, rfl⟩

theorem windows_exact_of_ten :
    (read listing thirdOfTen .empty).refusal = none ∧
    (read listing thirdOfTen .empty).state.apply (.ofTable "posts") =
      { Plan.ofTable "posts" with limit := some 10, offset := some 20 } ∧
    (∀ m n index, Shows listing thirdOfTen .empty (.ofTable "posts") m index →
      Shows listing thirdOfTen .empty (.ofTable "posts") n index → m = n) ∧
    ∃ last, IsGreatest {n | (read listing (numbering listing thirdOfTen n) .empty).refusal = none}
        last ∧
      ∀ index, (∃ n, Shows listing thirdOfTen .empty (.ofTable "posts") n index) ↔
        index < last * 10 := by
  obtain ⟨haccept, happly, hwindows⟩ := windows_exact listing thirdOfTen .empty (.ofTable "posts")
  exact ⟨haccept.mpr ⟨10, _, asks_thirdOfTen⟩, happly 10 _ asks_thirdOfTen,
    hwindows 10 (by decide) asks_thirdOfTen.asksSize asks_thirdOfTen.allowed (by decide)⟩

end PageClause

end RestQuery
