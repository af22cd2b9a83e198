import RestQuery.Proofs.Double
import RestQuery.Proofs.Load.Association
import RestQuery.Proofs.Load.Sent
import RestQuery.Proofs.Sql.Placeholders

/-!
# Keys that are bound

The keys of a level are told apart by their text and bound by their value. One value is bound for
each key, the first that has its text, and it is bound as it is unless it is a whole number above
the signed numbers of 64 bits: such a number is bound as a double, and its last digits are lost if
the mantissa has no room for them.
-/

namespace RestQuery

open Sql

/-! ### What a bound value denotes -/

/-- A bound value is the text, the number or the truth value of a row. -/
def Sql.Value.Denotes : Value → Json → Prop
  | .text s, .text t => s = t
  | .bool b, .bool c => b = c
  | .int n, .number (.int m) => n = m
  | .count n, .number (.int m) => (n : Int) = m
  | .double d, .number (.int m) => d.toRat? = some (m : ℚ)
  | .double d, .number (.double e) => d = e
  | _, _ => False

/-- A value that a double can stand for, if it is too large for a signed number of 64 bits. -/
def Json.FitsBinding (value : Json) : Prop :=
  ∀ n : Int, value = .number (.int n) → 2 ^ 63 ≤ n → 2 ^ 11 ∣ n

/-- Texts, numbers and truth values have a key text. -/
def Json.IsScalar : Json → Prop
  | .text _ | .number _ | .bool _ => True
  | _ => False

theorem exists_keyText_iff {value : Json} : (∃ key, keyText value = some key) ↔ value.IsScalar := by
  cases value <;> simp [keyText, Json.IsScalar]

theorem denotes_double_iff {n : Int} (hlow : 2 ^ 63 ≤ n) (hhigh : n < 2 ^ 64) :
    (Value.double (.ofNat n.toNat)).Denotes (.number (.int n)) ↔ (2 ^ 11 : Int) ∣ n := by
  obtain ⟨m, rfl⟩ := Int.eq_ofNat_of_zero_le (show 0 ≤ n by omega)
  have hlog : m.log2 = 52 + 11 := (Nat.log2_eq_iff (by omega)).mpr (by omega)
  have hvalue : (((m : Int) : ℚ)) = (m : ℚ) := Int.cast_natCast m
  change (Double.ofNat m).toRat? = some ((m : Int) : ℚ) ↔ _
  rw [hvalue, Double.toRat?_ofNat_eq_iff hlog (by decide)]
  exact Int.natCast_dvd_natCast.symm

theorem denotes_keyValue_iff {value : Json} {bound : Value} (hbound : keyValue value = some bound)
    (hword : ∀ n, value = .number (.int n) → n < 2 ^ 64) :
    bound.Denotes value ↔ value.FitsBinding := by
  have hint : (intBound : Int) = 2 ^ 63 := rfl
  cases value with
  | null | array items | object fields => cases hbound
  | text s | bool b =>
    obtain rfl := Option.some.inj hbound
    exact iff_of_true rfl nofun
  | number number =>
    cases number with
    | double d =>
      obtain rfl := Option.some.inj hbound
      exact iff_of_true rfl nofun
    | int n =>
      obtain rfl := Option.some.inj hbound
      have hfits : (Json.number (.int n)).FitsBinding ↔ (2 ^ 63 ≤ n → (2 ^ 11 : Int) ∣ n) := by
        constructor
        · exact fun h => h n rfl
        · intro h m hm
          obtain rfl : n = m := by injection hm with hm; injection hm
          exact h
      rw [hfits]
      split
      · next hsmall => exact iff_of_true rfl fun hlarge => absurd hlarge (by omega)
      · next hlarge =>
        have hlow : 2 ^ 63 ≤ n := by omega
        rw [denotes_double_iff hlow (hword n rfl), forall_prop_of_true hlow]

/-! ### One value for each key -/

def freshKeys (seen keys : List String) : List String :=
  (keys.filter fun key => decide (key ∉ seen)).eraseDups

section

variable {seen keys : List String} {key : String}

theorem not_mem_of_mem_freshKeys (h : key ∈ freshKeys seen keys) : key ∉ seen :=
  of_decide_eq_true (List.mem_filter.mp (List.mem_eraseDups.mp h)).2

theorem freshKeys_nil (keys : List String) : freshKeys [] keys = keys.eraseDups := by
  simp [freshKeys]

theorem freshKeys_cons_of_mem (h : key ∈ seen) :
    freshKeys seen (key :: keys) = freshKeys seen keys := by
  rw [freshKeys, List.filter_cons_of_neg (by simpa using h), freshKeys]

theorem freshKeys_cons_of_not_mem (h : key ∉ seen) :
    freshKeys seen (key :: keys) = key :: freshKeys (key :: seen) keys := by
  rw [freshKeys, List.filter_cons_of_pos (by simpa using h), List.eraseDups_cons,
    List.filter_filter, freshKeys]
  congr 3
  funext other
  rw [Bool.eq_iff_iff]
  simp

end

def KeyBound (values : List Json) (key : String) (bound : Value) : Prop :=
  ∃ value, values.find? (keyText · == some key) = some value ∧ keyValue value = some bound

theorem keyBound_cons {value : Json} {values : List Json} {keys : List String}
    {bounds : List Value} (hkeys : ∀ key ∈ keys, keyText value ≠ some key)
    (h : List.Forall₂ (KeyBound values) keys bounds) :
    List.Forall₂ (KeyBound (value :: values)) keys bounds := by
  refine ((List.forall₂_and_left _ _).mpr ⟨hkeys, h⟩).imp fun key bound hboth => ?_
  obtain ⟨hne, first, hfirst, hbound⟩ := hboth
  exact ⟨first, (List.find?_cons_of_neg (by simpa using hne)).trans hfirst, hbound⟩

theorem keyBound_distinctFrom (seen : List String) (values : List Json) :
    List.Forall₂ (KeyBound values) (freshKeys seen (values.filterMap keyText))
      (distinctFrom seen values) := by
  induction values generalizing seen with
  | nil => exact .nil
  | cons value values ih =>
    cases hkey : keyText value with
    | none =>
      rw [List.filterMap_cons_none hkey, distinctFrom, hkey]
      exact keyBound_cons (by simp [hkey]) (ih seen)
    | some first =>
      obtain ⟨bound, hbound⟩ := exists_keyValue hkey
      rw [List.filterMap_cons_some hkey, distinctFrom, hkey, hbound]
      dsimp only
      by_cases hseen : first ∈ seen
      · rw [if_pos (List.contains_iff_mem.mpr hseen), freshKeys_cons_of_mem hseen]
        refine keyBound_cons (fun key hmem heq => ?_) (ih seen)
        rw [hkey, Option.some_inj] at heq
        exact not_mem_of_mem_freshKeys hmem (heq ▸ hseen)
      · rw [if_neg (fun h => hseen (List.contains_iff_mem.mp h)),
          freshKeys_cons_of_not_mem hseen]
        refine .cons ⟨value, List.find?_cons_of_pos (by simp [hkey]), hbound⟩
          (keyBound_cons (fun key hmem heq => ?_) (ih (first :: seen)))
        rw [hkey, Option.some_inj] at heq
        exact not_mem_of_mem_freshKeys hmem (heq ▸ List.mem_cons_self)

/-! ### The keys of a statement -/

theorem isIn_mem_leaves {relation : Relation} {related : Entity} {ref : ColumnRef}
    (href : relation.keyColumn? related.table = some ref) (load : EagerLoad)
    (keys : List Value) :
    .isIn ref keys false ∈ (relationSelect relation related load keys).leaves := by
  have hkey : .isIn ref keys false ∈ relation.keyLeaves related.table keys := by
    rw [Relation.keyLeaves, href]
    exact List.mem_cons_self
  rw [leaves_relationSelect]
  exact List.mem_append_left _ hkey

namespace Load

/-- A step whose rows have a key begins with the statement for their keys, even if it fails. -/
theorem sends_ofRelation (db : Database) (schema : Schema) {path name column : String}
    {relation : Relation} {target : Entity} {load : EagerLoad} {steps : List LoadStep}
    {rows : List Row} (hkeys : distinctKeys column rows ≠ []) :
    Sends (fun more => ∃ rest,
        more = .ofRelation relation target load (distinctKeys column rows) :: rest)
      (runStep db schema (.related path name column relation target load steps) rows) := by
  rw [runStep, if_neg (by simpa using hkeys)]
  refine Sends.bind (sends_ask (L := fun more => more = [_]) rfl)
    (M := fun more => ∀ statement ∈ more, True) (fun children => ?_) ?_ ?_
  · have hsteps : ∀ rows, SendsOnly (fun _ => True) (runSteps db schema steps rows) := fun rows =>
      (sendsOnly_runSteps steps rows).imp fun _ _ => trivial
    exact (sendsOnly_level hsteps target children).bind fun _ => sendsOnly_pure _
  · rintro more rfl
    exact ⟨[], rfl⟩
  · rintro first more rfl -
    exact ⟨more, rfl⟩

end Load

/-- What is bound for a key denotes the value that has the key first, unless it is too large. -/
def KeyDenoted (values : List Json) (key : String) (bound : Value) : Prop :=
  ∃ value, values.find? (keyText · == some key) = some value ∧
    (bound.Denotes value ↔ value.FitsBinding)

section

variable {values : List Json} (hword : ∀ n : Int, .number (.int n) ∈ values → n < 2 ^ 64)

include hword

theorem keyDenoted_distinctFrom :
    List.Forall₂ (KeyDenoted values) (values.filterMap keyText).eraseDups
      (distinctFrom [] values) := by
  have hbound := keyBound_distinctFrom [] values
  rw [freshKeys_nil] at hbound
  refine hbound.imp fun key bound h => ?_
  obtain ⟨value, hfirst, hvalue⟩ := h
  have hmem : value ∈ values := List.mem_of_find?_eq_some hfirst
  exact ⟨value, hfirst, denotes_keyValue_iff hvalue fun n hn => hword n (hn ▸ hmem)⟩

theorem exists_keyDenoted {column : String} {rows : List Row}
    (hvalues : rows.filterMap (·.get? column) = values) {row : Row} (hrow : row ∈ rows)
    {key : String} (hkey : keyAt column row = some key) :
    ∃ bound ∈ distinctKeys column rows, KeyDenoted values key bound := by
  obtain ⟨value, hvalue, htext⟩ := Option.bind_eq_some_iff.mp hkey
  have hmem : value ∈ values := hvalues ▸ List.mem_filterMap.mpr ⟨row, hrow, hvalue⟩
  have hkeys : key ∈ (values.filterMap keyText).eraseDups :=
    List.mem_eraseDups.mpr (List.mem_filterMap.mpr ⟨value, hmem, htext⟩)
  rw [distinctKeys, hvalues]
  exact exists_of_forall₂_of_mem (keyDenoted_distinctFrom hword).flip hkeys

end

/-- One value is bound for each key of a level, in order, and it denotes the value that has the key
first unless this is a number whose digits do not fit. The statement for the related rows tests
their column for these values, and each key that a row is matched by is among them. -/
theorem keys_bound (values : List Json)
    (hword : ∀ n : Int, .number (.int n) ∈ values → n < 2 ^ 64) :
    (∀ value ∈ values, (∃ key, keyText value = some key) ↔ value.IsScalar) ∧
    List.Forall₂ (KeyDenoted values) (values.filterMap keyText).eraseDups
      (distinctFrom [] values) ∧
    ∀ (column : String) (rows : List Row), rows.filterMap (·.get? column) = values →
      (∀ row ∈ rows, ∀ key, keyAt column row = some key →
        ∃ bound ∈ distinctKeys column rows, KeyDenoted values key bound) ∧
      ∀ (db : Database) (schema : Schema) (path name : String) (relation : Relation)
        (target : Entity) (load : EagerLoad) (steps : List LoadStep) (ref : ColumnRef),
        relation.keyColumn? target.table = some ref →
        (∃ row ∈ rows, ∃ key, keyAt column row = some key) →
        Sends (fun more => ∃ s rest, more = .select s :: rest ∧
            .isIn ref (distinctKeys column rows) false ∈ s.leaves)
          (Load.runStep db schema (.related path name column relation target load steps) rows) := by
  refine ⟨fun value _ => exists_keyText_iff, keyDenoted_distinctFrom hword,
    fun column rows hvalues => ⟨fun row hrow key hkey => exists_keyDenoted hword hvalues hrow hkey,
      fun db schema path name relation target load steps ref href hsome => ?_⟩⟩
  have hkeys : distinctKeys column rows ≠ [] := by
    obtain ⟨row, hrow, key, hkey⟩ := hsome
    intro hnil
    rw [distinctKeys_eq_nil_iff.mp hnil row hrow] at hkey
    cases hkey
  refine (Load.sends_ofRelation db schema hkeys).imp fun more hmore => ?_
  obtain ⟨rest, rfl⟩ := hmore
  exact ⟨_, rest, rfl, isIn_mem_leaves href load _⟩

/-- Two numbers above the signed ones, of which the first loses its last digit as a double, and
keys of other kinds. -/
def greatKeys : List Json :=
  [.number (.int 9223372036854775809), .null, .number (.int 9223372036854775808), .text "2",
    .ofNat 2, .bool true]

def greatRows : List Row := greatKeys.map fun value => [("id", value)]

theorem keys_bound_of_great :
    List.Forall₂ (KeyDenoted greatKeys)
      ["9223372036854775809", "9223372036854775808", "2", "true"] (distinctFrom [] greatKeys) ∧
    (∃ bound ∈ distinctKeys "id" greatRows, KeyDenoted greatKeys "2" bound) ∧
    Sends (fun more => ∃ s rest, more = .select s :: rest ∧
        .isIn ⟨"posts", "user_id"⟩ (distinctKeys "id" greatRows) false ∈ s.leaves)
      (Load.runStep (.replaying []) .empty (.related "posts" "posts" "id"
        (.hasMany "posts" "user_id" "id") (.ofTable "posts" "posts") .empty []) greatRows) := by
  have hword : ∀ n : Int, .number (.int n) ∈ greatKeys → n < 2 ^ 64 := by
    intro n hn
    simp only [greatKeys, List.mem_cons, List.not_mem_nil, Json.ofNat, Json.number.injEq,
      Number.int.injEq, reduceCtorEq, false_or, or_false] at hn
    omega
  have hkeys : (greatKeys.filterMap keyText).eraseDups =
      ["9223372036854775809", "9223372036854775808", "2", "true"] := by decide +kernel
  obtain ⟨-, hbound, hlevel⟩ := keys_bound greatKeys hword
  obtain ⟨hrows, hsends⟩ := hlevel "id" greatRows rfl
  have htwo : [("id", .ofNat 2)] ∈ greatRows := by simp [greatRows, greatKeys]
  have hkey : keyAt "id" [("id", .ofNat 2)] = some "2" := by decide +kernel
  refine ⟨hkeys ▸ hbound, hrows _ htwo "2" hkey, ?_⟩
  exact hsends (.replaying []) .empty "posts" "posts" (.hasMany "posts" "user_id" "id")
    (.ofTable "posts" "posts") .empty [] ⟨"posts", "user_id"⟩ (by decide) ⟨_, htwo, "2", hkey⟩

/-- Two numbers that are different keys are bound as one double, which is not the first of them. -/
theorem great_keys_collide :
    ∃ double : Value, distinctFrom [] greatKeys = [double, double, .text "2", .bool true] ∧
      ¬ double.Denotes (.number (.int 9223372036854775809)) ∧
      double.Denotes (.number (.int 9223372036854775808)) := by
  refine ⟨.double (.ofNat (9223372036854775808 : Int).toNat), by decide +kernel, ?_, ?_⟩
  · have hsame : Double.ofNat (9223372036854775808 : Int).toNat =
        .ofNat (9223372036854775809 : Int).toNat := by decide +kernel
    rw [hsame, denotes_double_iff (by decide) (by decide)]
    decide
  · rw [denotes_double_iff (by decide) (by decide)]
    decide

end RestQuery
