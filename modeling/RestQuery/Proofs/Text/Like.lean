import Mathlib.Data.List.Forall2
import Mathlib.Data.List.Infix
import RestQuery.Filter
import RestQuery.Proofs.Text.Dotted

/-!
# Patterns and globs

A pattern is read mark by mark: a wildcard, a character that stands for itself, or an escaped one.
The pattern of a glob is read as one mark for each character of the glob, so it has the instances of
the glob, its escapes are complete, and only what would be a wildcard or an escape is escaped. What
an engine takes for the same character, a capital and a small letter for example, is left open.

The pattern of a glob can also be written in four passes over the text, each of which replaces one
character. No pass meets what an earlier one wrote in the place of its character: the backslashes
come first, and the star, whose wildcard must not be escaped, comes last.
-/

namespace RestQuery

namespace Like

/-! ### Instances of patterns -/

inductive Mark where
  | run
  | one
  | plain (c : Char)
  | escaped (c : Char)
deriving DecidableEq, Repr

def Mark.ofChar (c : Char) : Mark := if c = '%' then run else if c = '_' then one else plain c

/-- The marks of a pattern, or of the rest of one that stands behind the escape character; `none` if
it ends with the escape character. -/
def marksFrom (escape : Option Char) : (behindEscape : Bool) → List Char → Option (List Mark)
  | false, [] => some []
  | true, [] => none
  | true, c :: pattern => (marksFrom escape false pattern).map (.escaped c :: ·)
  | false, c :: pattern =>
    if escape = some c then marksFrom escape true pattern
    else (marksFrom escape false pattern).map (.ofChar c :: ·)

def marks? (escape : Option Char) (pattern : List Char) : Option (List Mark) :=
  marksFrom escape false pattern

section

variable (same : Char → Char → Bool)

/-- Whether `%` can stand for a run, `_` for a character and each other mark for a character that is
the same, so that the text comes out. -/
def fits : List Mark → List Char → Bool
  | [], text => text.isEmpty
  | .run :: marks, text => text.tails.any fun rest => fits marks rest
  | .one :: marks, _ :: text => fits marks text
  | .plain l :: marks, c :: text => same l c && fits marks text
  | .escaped l :: marks, c :: text => same l c && fits marks text
  | _, [] => false

/-- Whether a text is an instance of a pattern. A pattern that ends with the escape character has no
instance. -/
def isInstance (escape : Option Char) (pattern text : String) : Bool :=
  (marks? escape pattern.toList).any fun marks => fits same marks text.toList

/-- The instances of a glob: `*` stands for any run of characters, every other character for
itself. -/
inductive IsGlobInstance : (glob text : List Char) → Prop
  | nil : IsGlobInstance [] []
  | star (run : List Char) {glob text : List Char} :
      IsGlobInstance glob text → IsGlobInstance ('*' :: glob) (run ++ text)
  | literal {g c : Char} {glob text : List Char} (hg : g ≠ '*') (hc : same g c = true) :
      IsGlobInstance glob text → IsGlobInstance (g :: glob) (c :: text)

end

variable {same : Char → Char → Bool}

theorem fits_run_iff {marks : List Mark} {text : List Char} :
    fits same (.run :: marks) text = true ↔
      ∃ run rest, text = run ++ rest ∧ fits same marks rest = true := by
  rw [fits, List.any_eq_true]
  simp only [List.mem_tails]
  constructor
  · rintro ⟨rest, ⟨run, hrun⟩, hrest⟩
    exact ⟨run, rest, hrun.symm, hrest⟩
  · rintro ⟨run, rest, htext, hrest⟩
    exact ⟨rest, ⟨run, htext.symm⟩, hrest⟩

/-! ### Escaped characters -/

/-- The characters that stand for themselves only if they are escaped. -/
def isSpecial (c : Char) : Bool := c == '\\' || c == '%' || c == '_'

def literalMark (c : Char) : Mark := if isSpecial c then .escaped c else .plain c

theorem marks?_escapeChar (c : Char) (pattern : List Char) :
    marks? (some '\\') (escapeChar c ++ pattern) =
      (marks? (some '\\') pattern).map (literalMark c :: ·) := by
  unfold escapeChar
  by_cases hspecial : c = '\\' ∨ c = '%' ∨ c = '_'
  · have hmark : literalMark c = .escaped c := by
      rw [literalMark, if_pos (by simpa [isSpecial, or_assoc] using hspecial)]
    rw [if_pos hspecial, hmark]
    rfl
  · have hmark : literalMark c = .plain c := by
      rw [literalMark, if_neg (by simpa [isSpecial, or_assoc] using hspecial)]
    simp only [not_or] at hspecial
    obtain ⟨hescape, hrun, hone⟩ := hspecial
    have hchar : Mark.ofChar c = .plain c := by rw [Mark.ofChar, if_neg hrun, if_neg hone]
    have hne : some '\\' ≠ some c := fun e => hescape (Option.some.inj e).symm
    rw [if_neg (by simp [hescape, hrun, hone]), hmark, ← hchar, List.singleton_append, marks?,
      marksFrom, if_neg hne]
    rfl

theorem marks?_escape (word pattern : List Char) :
    marks? (some '\\') (word.flatMap escapeChar ++ pattern) =
      (marks? (some '\\') pattern).map (word.map literalMark ++ ·) := by
  induction word with
  | nil => simp
  | cons c word ih =>
    rw [List.flatMap_cons, List.append_assoc, marks?_escapeChar, ih, Option.map_map]
    rfl

theorem fits_literalMark_iff {l : Char} {marks : List Mark} {text : List Char} :
    fits same (literalMark l :: marks) text = true ↔
      ∃ c rest, text = c :: rest ∧ same l c = true ∧ fits same marks rest = true := by
  unfold literalMark
  split <;> cases text <;> simp [fits]

theorem fits_literalMarks_iff {word : List Char} {marks : List Mark} {text : List Char} :
    fits same (word.map literalMark ++ marks) text = true ↔
      ∃ found rest, text = found ++ rest ∧ List.Forall₂ (same · · = true) word found ∧
        fits same marks rest = true := by
  induction word generalizing text with
  | nil => simp
  | cons l word ih =>
    rw [List.map_cons, List.cons_append, fits_literalMark_iff]
    constructor
    · rintro ⟨c, rest, rfl, hc, hrest⟩
      obtain ⟨found, after, rfl, hfound, hafter⟩ := ih.mp hrest
      exact ⟨c :: found, after, rfl, .cons hc hfound, hafter⟩
    · rintro ⟨_, after, rfl, hfound, hafter⟩
      cases hfound with
      | @cons _ c _ found hc hfound =>
        exact ⟨c, found ++ after, rfl, hc, ih.mpr ⟨found, after, rfl, hfound, hafter⟩⟩

/-! ### Texts that contain a word -/

variable (same) in
/-- Whether a word, or the same characters, stands somewhere in a text. -/
def Contains (word text : String) : Prop :=
  ∃ before found after, text.toList = before ++ found ++ after ∧
    List.Forall₂ (same · · = true) word.toList found

theorem not_contains_empty {word : String} (h : word ≠ "") : ¬ Contains same word "" := by
  rintro ⟨before, found, after, htext, hfound⟩
  have hnil : found = [] := by
    have hparts : before ++ found ++ after = [] := htext.symm
    simp only [List.append_eq_nil_iff] at hparts
    exact hparts.1.2
  subst hnil
  cases hword : word.toList with
  | nil => exact h (by simpa using hword)
  | cons c cs =>
    rw [hword] at hfound
    cases hfound

/-- The pattern of an escaped word with `%` on both sides. -/
theorem marks?_containing (word : String) :
    marks? (some '\\') ("%" ++ escape word ++ "%").toList =
      some (.run :: (word.toList.map literalMark ++ [.run])) := by
  have htoList : ("%" ++ escape word ++ "%").toList =
      '%' :: (word.toList.flatMap escapeChar ++ ['%']) := by simp [escape]
  have hrun : ∀ pattern, marks? (some '\\') ('%' :: pattern) =
      (marks? (some '\\') pattern).map (.run :: ·) := fun _ => rfl
  rw [htoList, hrun, marks?_escape, hrun]
  rfl

theorem isInstance_containing_iff {word text : String} :
    isInstance same (some '\\') ("%" ++ escape word ++ "%") text = true ↔
      Contains same word text := by
  have hall : ∀ text : List Char, fits same [.run] text = true := fun text =>
    fits_run_iff.mpr ⟨text, [], by simp, rfl⟩
  rw [isInstance, marks?_containing]
  change fits same (.run :: (word.toList.map literalMark ++ [.run])) text.toList = true ↔ _
  rw [fits_run_iff]
  constructor
  · rintro ⟨before, rest, htext, hrest⟩
    obtain ⟨found, after, rfl, hfound, -⟩ := fits_literalMarks_iff.mp hrest
    exact ⟨before, found, after, by rw [htext, List.append_assoc], hfound⟩
  · rintro ⟨before, found, after, htext, hfound⟩
    exact ⟨before, found ++ after, by rw [htext, List.append_assoc],
      fits_literalMarks_iff.mpr ⟨found, after, rfl, hfound, hall after⟩⟩

/-! ### Globs -/

def globChar (c : Char) : List Char := if c = '*' then ['%'] else escapeChar c

def globMark (c : Char) : Mark := if c = '*' then .run else literalMark c

theorem marks?_globChar (c : Char) (pattern : List Char) :
    marks? (some '\\') (globChar c ++ pattern) =
      (marks? (some '\\') pattern).map (globMark c :: ·) := by
  unfold globChar globMark
  by_cases hstar : c = '*'
  · subst hstar
    rfl
  · rw [if_neg hstar, if_neg hstar, marks?_escapeChar]

theorem toList_ofGlob (glob : String) : (ofGlob glob).toList = glob.toList.flatMap globChar :=
  String.toList_ofList

theorem marks?_ofGlob (glob : String) :
    marks? (some '\\') (ofGlob glob).toList = some (glob.toList.map globMark) := by
  rw [toList_ofGlob]
  induction glob.toList with
  | nil => rfl
  | cons c cs ih =>
    rw [List.flatMap_cons, marks?_globChar, ih]
    rfl

theorem isGlobInstance_star_iff {glob text : List Char} :
    IsGlobInstance same ('*' :: glob) text ↔
      ∃ run rest, text = run ++ rest ∧ IsGlobInstance same glob rest := by
  constructor
  · intro h
    cases h with
    | star run h => exact ⟨run, _, rfl, h⟩
    | literal hg => exact absurd rfl hg
  · rintro ⟨run, rest, rfl, h⟩
    exact .star run h

theorem isGlobInstance_literal_iff {g : Char} (hg : g ≠ '*') {glob text : List Char} :
    IsGlobInstance same (g :: glob) text ↔
      ∃ c rest, text = c :: rest ∧ same g c = true ∧ IsGlobInstance same glob rest := by
  constructor
  · intro h
    cases h with
    | star => exact absurd rfl hg
    | literal _ hc h => exact ⟨_, _, rfl, hc, h⟩
  · rintro ⟨c, rest, rfl, hc, h⟩
    exact .literal hg hc h

theorem fits_globMarks_iff {glob text : List Char} :
    fits same (glob.map globMark) text = true ↔ IsGlobInstance same glob text := by
  induction glob generalizing text with
  | nil =>
    cases text with
    | nil => exact ⟨fun _ => .nil, fun _ => rfl⟩
    | cons c rest => exact ⟨nofun, nofun⟩
  | cons g glob ih =>
    rw [List.map_cons]
    by_cases hg : g = '*'
    · subst hg
      rw [globMark, if_pos rfl, fits_run_iff, isGlobInstance_star_iff]
      simp only [ih]
    · rw [globMark, if_neg hg, fits_literalMark_iff, isGlobInstance_literal_iff hg]
      simp only [ih]

/-! ### Passes -/

def substitute (c : Char) (replacement : List Char) (cs : List Char) : List Char :=
  cs.flatMap fun d => if d = c then replacement else [d]

/-- Escapes the backslashes, then the percent signs, then the underscores. -/
def escapePasses (cs : List Char) : List Char :=
  substitute '_' ['\\', '_'] (substitute '%' ['\\', '%'] (substitute '\\' ['\\', '\\'] cs))

theorem escapePasses_eq (cs : List Char) : escapePasses cs = cs.flatMap escapeChar := by
  unfold escapePasses substitute
  rw [List.flatMap_assoc, List.flatMap_assoc]
  refine List.flatMap_congr fun c _ => ?_
  by_cases hescape : c = '\\'
  · subst hescape
    rfl
  · by_cases hrun : c = '%'
    · subst hrun
      rfl
    · by_cases hone : c = '_'
      · subst hone
        rfl
      · simp [escapeChar, hescape, hrun, hone]

theorem globPasses_eq (cs : List Char) :
    substitute '*' ['%'] (escapePasses cs) = cs.flatMap globChar := by
  rw [escapePasses_eq]
  unfold substitute
  rw [List.flatMap_assoc]
  refine List.flatMap_congr fun c _ => ?_
  by_cases hstar : c = '*'
  · subst hstar
    rfl
  · unfold globChar escapeChar
    split <;> simp [hstar]

/-! ### Patterns of filters -/

/-- A pattern that stands for a glob, with all its escapes in place. -/
structure Means (pattern glob : String) : Prop where
  instances : ∀ (same : Char → Char → Bool) (text : String),
    isInstance same (some '\\') pattern text = true ↔
      IsGlobInstance same glob.toList text.toList
  escapes : ∃ marks, marks? (some '\\') pattern.toList = some marks ∧
    ∀ c, .escaped c ∈ marks → c = '\\' ∨ c = '%' ∨ c = '_'

theorem isSpecial_of_escaped_eq_globMark {c g : Char} (h : .escaped c = globMark g) :
    isSpecial c = true := by
  unfold globMark literalMark at h
  split at h
  · cases h
  · split at h
    · next hspecial =>
      cases h
      exact hspecial
    · cases h

theorem means_ofGlob (glob : String) : Means (ofGlob glob) glob where
  instances same text := by
    rw [isInstance, marks?_ofGlob]
    exact fits_globMarks_iff
  escapes := by
    refine ⟨_, marks?_ofGlob glob, fun c hc => ?_⟩
    obtain ⟨g, -, hg⟩ := List.mem_map.mp hc
    simpa [isSpecial, or_assoc] using isSpecial_of_escaped_eq_globMark hg.symm

end Like

namespace Strategy

theorem build_of_notMem (strategy : Strategy) (column : String) {value : String}
    (h : '|' ∉ value.toList) : strategy.build column value = strategy.predicate column value := by
  have hone : Text.pieces '|' value = [value] := by
    rw [Text.pieces, Text.splitWhere_of_forall_not]
    · simp
    · intro c hc
      rw [beq_eq_false_iff_ne]
      rintro rfl
      exact h hc
  rw [build, hone]
  rfl

/-- The pattern of a filter stands for its value as a glob. It is what four passes over the value
write. -/
theorem pattern_means_glob (negated : Bool) (column : String) {value : String}
    (h : '|' ∉ value.toList) :
    ∃ pattern, (like negated).build column value = .like column pattern negated (some '\\') ∧
      pattern.toList = Like.substitute '*' ['%'] (Like.escapePasses value.toList) ∧
      Like.Means pattern value := by
  refine ⟨Like.ofGlob value, build_of_notMem _ column h, ?_, Like.means_ofGlob value⟩
  rw [Like.toList_ofGlob, Like.globPasses_eq]

/-- A value in which all special characters meet. -/
theorem pattern_means_glob_of_discount :
    '|' ∉ "100%_\\*".toList ∧
      ∃ pattern, (like false).build "title" "100%_\\*" =
          .like "title" pattern false (some '\\') ∧
        pattern.toList = Like.substitute '*' ['%'] (Like.escapePasses "100%_\\*".toList) ∧
        Like.Means pattern "100%_\\*" :=
  ⟨by decide, pattern_means_glob false "title" (by decide)⟩

end Strategy

end RestQuery
