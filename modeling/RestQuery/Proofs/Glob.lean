import RestQuery.Glob

/-!
# What a glob pattern allows

A path is an instance of a pattern if it comes out when each star of the pattern is replaced by some
run of characters on one line. The rows of the matcher decide just that, without going back over
the path.

A pattern can also be turned into a regular expression, by quoting all its characters and loosening
the quoted stars afterwards. Every star that is not loosened would stand behind its own quote, so a
backslash of the pattern in front of a star stays quoted and the star is loosened all the same.
-/

namespace RestQuery.Glob

/-! ### Instances -/

/-- What becomes of a pattern when each star is replaced by a run of characters on one line. -/
inductive IsInstance : (pattern text : List Char) → Prop
  | nil : IsInstance [] []
  | star {run : List Char} (hrun : '\n' ∉ run) {pattern text : List Char} :
      IsInstance pattern text → IsInstance ('*' :: pattern) (run ++ text)
  | literal {c : Char} (hc : c ≠ '*') {pattern text : List Char} :
      IsInstance pattern text → IsInstance (c :: pattern) (c :: text)

theorem isInstance_nil_iff {text : List Char} : IsInstance [] text ↔ text = [] := by
  constructor
  · rintro ⟨⟩
    rfl
  · rintro rfl
    exact .nil

theorem isInstance_star_iff {pattern text : List Char} :
    IsInstance ('*' :: pattern) text ↔
      ∃ run rest, text = run ++ rest ∧ '\n' ∉ run ∧ IsInstance pattern rest := by
  constructor
  · intro h
    cases h with
    | @star run hrun _ rest h => exact ⟨run, rest, rfl, hrun, h⟩
    | literal hc => exact absurd rfl hc
  · rintro ⟨run, rest, rfl, hrun, h⟩
    exact .star hrun h

theorem isInstance_literal_iff {c : Char} (hc : c ≠ '*') {pattern text : List Char} :
    IsInstance (c :: pattern) text ↔ ∃ rest, text = c :: rest ∧ IsInstance pattern rest := by
  constructor
  · intro h
    cases h with
    | star => exact absurd rfl hc
    | literal _ h => exact ⟨_, rfl, h⟩
  · rintro ⟨rest, rfl, h⟩
    exact .literal hc h

/-- A run either takes up nothing, or one more character of the line. -/
theorem isInstance_star_cons_iff {c : Char} {pattern text : List Char} :
    IsInstance ('*' :: pattern) (c :: text) ↔
      IsInstance pattern (c :: text) ∨ c ≠ '\n' ∧ IsInstance ('*' :: pattern) text := by
  rw [isInstance_star_iff, isInstance_star_iff]
  constructor
  · rintro ⟨run, rest, htext, hrun, h⟩
    cases run with
    | nil =>
      rw [List.nil_append] at htext
      exact .inl (htext ▸ h)
    | cons d run =>
      rw [List.cons_append, List.cons.injEq] at htext
      obtain ⟨rfl, rfl⟩ := htext
      rw [List.mem_cons, not_or] at hrun
      exact .inr ⟨Ne.symm hrun.1, run, rest, rfl, hrun.2, h⟩
  · rintro (h | ⟨hc, run, rest, rfl, hrun, h⟩)
    · exact ⟨[], c :: text, rfl, List.not_mem_nil, h⟩
    · refine ⟨c :: run, rest, rfl, ?_, h⟩
      rw [List.mem_cons, not_or]
      exact ⟨Ne.symm hc, hrun⟩

theorem isInstance_star_nil_iff {pattern : List Char} :
    IsInstance ('*' :: pattern) [] ↔ IsInstance pattern [] := by
  rw [isInstance_star_iff]
  constructor
  · rintro ⟨run, rest, hnil, -, h⟩
    obtain ⟨rfl, rfl⟩ := List.append_eq_nil_iff.mp hnil.symm
    exact h
  · intro h
    exact ⟨[], [], rfl, List.not_mem_nil, h⟩

theorem isInstance_self (pattern : List Char) : IsInstance pattern pattern := by
  induction pattern with
  | nil => exact .nil
  | cons c pattern ih =>
    by_cases hc : c = '*'
    · subst hc
      exact @IsInstance.star ['*'] (by decide) _ _ ih
    · exact .literal hc ih

/-- Without a star a pattern has itself as its only instance. -/
theorem isInstance_iff_eq {pattern text : List Char} (h : '*' ∉ pattern) :
    IsInstance pattern text ↔ text = pattern := by
  induction pattern generalizing text with
  | nil => exact isInstance_nil_iff
  | cons c pattern ih =>
    rw [List.mem_cons, not_or] at h
    rw [isInstance_literal_iff (Ne.symm h.1)]
    constructor
    · rintro ⟨rest, rfl, hrest⟩
      rw [(ih h.2).mp hrest]
    · rintro rfl
      exact ⟨pattern, rfl, (ih h.2).mpr rfl⟩

/-! ### Rows -/

theorem tail_rowOf (p : Char) (pattern text : List Char) :
    (rowOf (p :: pattern) text).tail = rowOf pattern text := by
  induction text with
  | nil => rfl
  | cons c text ih => rw [rowOf, rowBefore, List.tail_cons, ih, rowOf]

@[simp] theorem accepts_nil_nil : accepts [] [] = true := rfl

@[simp]
theorem accepts_nil_cons (c : Char) (text : List Char) : accepts [] (c :: text) = false := rfl

@[simp] theorem accepts_cons_nil (p : Char) (pattern : List Char) :
    accepts (p :: pattern) [] = (p == '*' && accepts pattern []) := rfl

@[simp] theorem accepts_cons_cons (p c : Char) (pattern text : List Char) :
    accepts (p :: pattern) (c :: text) =
      if p = '*' then accepts pattern (c :: text) || (c != '\n' && accepts (p :: pattern) text)
      else p == c && accepts pattern text := by
  unfold accepts
  rw [rowOf, rowBefore, List.headD_cons, tail_rowOf]
  rfl

theorem accepts_iff_isInstance {pattern text : List Char} :
    accepts pattern text = true ↔ IsInstance pattern text := by
  induction pattern generalizing text with
  | nil =>
    rw [isInstance_nil_iff]
    cases text with
    | nil => simp
    | cons c text => simp
  | cons p pattern ih =>
    by_cases hp : p = '*'
    · subst hp
      -- The star stays while it takes up characters, so this is an induction on the text.
      induction text with
      | nil => rw [accepts_cons_nil, isInstance_star_nil_iff, beq_self_eq_true, Bool.true_and, ih]
      | cons c text ihtext =>
        rw [accepts_cons_cons, if_pos rfl, isInstance_star_cons_iff, Bool.or_eq_true,
          Bool.and_eq_true, bne_iff_ne, ih, ihtext]
    · rw [isInstance_literal_iff hp]
      cases text with
      | nil => simp [hp]
      | cons c text =>
        rw [accepts_cons_cons, if_neg hp, Bool.and_eq_true, beq_iff_eq, ih]
        constructor
        · rintro ⟨rfl, h⟩
          exact ⟨text, rfl, h⟩
        · rintro ⟨rest, htext, h⟩
          obtain ⟨rfl, rfl⟩ := List.cons_eq_cons.mp htext
          exact ⟨rfl, h⟩

/-! ### Expressions -/

def isMeta (c : Char) : Bool :=
  ['\\', '.', '+', '*', '?', '(', ')', '|', '[', ']', '\x7b', '\x7d', '^', '$', '#', '&', '-',
    '~'].contains c

def quote (cs : List Char) : List Char := cs.flatMap fun c => if isMeta c then ['\\', c] else [c]

/-- Writes `.*` for each `\*`, from the left. -/
def loosenStars : List Char → List Char
  | '\\' :: '*' :: rest => '.' :: '*' :: loosenStars rest
  | c :: rest => c :: loosenStars rest
  | [] => []

def expression (pattern : List Char) : List Char := '^' :: (loosenStars (quote pattern) ++ ['$'])

inductive Part where
  | start
  | stop
  | run
  | plain (c : Char)
deriving DecidableEq, Repr

/-- Reads an expression, of which only these parts are known. -/
def readParts : List Char → Option (List Part)
  | [] => some []
  | '^' :: cs => (readParts cs).map (.start :: ·)
  | '$' :: cs => (readParts cs).map (.stop :: ·)
  | '.' :: '*' :: cs => (readParts cs).map (.run :: ·)
  | '\\' :: c :: cs => if isMeta c then (readParts cs).map (.plain c :: ·) else none
  | c :: cs => if isMeta c then none else (readParts cs).map (.plain c :: ·)

/-- Whether parts match what follows in a text behind `before`, or a beginning of it. -/
def MatchesFrom : List Part → (before after : List Char) → Prop
  | [], _, _ => True
  | .start :: parts, before, after => before = [] ∧ MatchesFrom parts before after
  | .stop :: parts, before, after => after = [] ∧ MatchesFrom parts before after
  | .run :: parts, before, after =>
    ∃ run rest, after = run ++ rest ∧ '\n' ∉ run ∧ MatchesFrom parts (before ++ run) rest
  | .plain c :: parts, before, after =>
    ∃ rest, after = c :: rest ∧ MatchesFrom parts (before ++ [c]) rest

def FoundIn (expression text : List Char) : Prop :=
  ∃ parts, readParts expression = some parts ∧
    ∃ before after, text = before ++ after ∧ MatchesFrom parts before after

def loosened (c : Char) : List Char :=
  if c = '*' then ['.', '*'] else if isMeta c then ['\\', c] else [c]

theorem loosenStars_cons {c : Char} {rest : List Char}
    (h : c = '\\' → rest.head? ≠ some '*') : loosenStars (c :: rest) = c :: loosenStars rest := by
  rw [loosenStars]
  rintro rest' hc rfl
  exact h hc rfl

theorem head?_quote_ne_star (cs : List Char) : (quote cs).head? ≠ some '*' := by
  cases cs with
  | nil => simp [quote]
  | cons c cs =>
    rw [quote, List.flatMap_cons]
    split
    · simp
    · next hc =>
      rintro ⟨⟩
      exact hc rfl

theorem loosenStars_quote (pattern : List Char) :
    loosenStars (quote pattern) = pattern.flatMap loosened := by
  induction pattern with
  | nil => rfl
  | cons c pattern ih =>
    have hquote : quote (c :: pattern) = (if isMeta c then ['\\', c] else [c]) ++ quote pattern :=
      rfl
    have hnext : c = '\\' → (quote pattern).head? ≠ some '*' := fun _ =>
      head?_quote_ne_star pattern
    rw [hquote, List.flatMap_cons, ← ih, loosened]
    by_cases hstar : c = '*'
    · subst hstar
      rfl
    · rw [if_neg hstar]
      split
      · have hc : ['\\', c] ++ quote pattern = '\\' :: c :: quote pattern := rfl
        have hfirst : '\\' = '\\' → (c :: quote pattern).head? ≠ some '*' := by
          rintro - ⟨⟩
          exact hstar rfl
        rw [hc, loosenStars_cons hfirst, loosenStars_cons hnext]
        rfl
      · exact loosenStars_cons hnext

def partOf (c : Char) : Part := if c = '*' then .run else .plain c

theorem readParts_loosened (c : Char) (cs : List Char) :
    readParts (loosened c ++ cs) = (readParts cs).map (partOf c :: ·) := by
  unfold loosened partOf
  by_cases hstar : c = '*'
  · subst hstar
    rfl
  · rw [if_neg hstar, if_neg hstar]
    by_cases hmeta : isMeta c = true
    · rw [if_pos hmeta]
      change readParts ('\\' :: c :: cs) = _
      rw [readParts, if_pos hmeta]
    · rw [if_neg hmeta]
      have hne : ∀ m, isMeta m = true → c ≠ m := by
        rintro m hm rfl
        exact hmeta hm
      rw [List.singleton_append, readParts, if_neg hmeta]
      · exact hne '^' rfl
      · exact hne '$' rfl
      · exact fun _ hc => absurd hc (hne '.' rfl)
      · exact fun _ _ hc => absurd hc (hne '\\' rfl)

theorem readParts_expression (pattern : List Char) :
    readParts (expression pattern) = some (.start :: (pattern.map partOf ++ [.stop])) := by
  have hrest : readParts (pattern.flatMap loosened ++ ['$']) =
      some (pattern.map partOf ++ [.stop]) := by
    induction pattern with
    | nil => rfl
    | cons c pattern ih =>
      rw [List.flatMap_cons, List.append_assoc, readParts_loosened, ih]
      rfl
  rw [expression, loosenStars_quote, readParts, hrest]
  rfl

/-- Between its two ends an expression matches the instances of its pattern. -/
theorem matchesFrom_iff {pattern before after : List Char} :
    MatchesFrom (pattern.map partOf ++ [.stop]) before after ↔ IsInstance pattern after := by
  induction pattern generalizing before after with
  | nil =>
    rw [isInstance_nil_iff]
    exact iff_of_eq (and_true _)
  | cons c pattern ih =>
    rw [List.map_cons, List.cons_append]
    by_cases hstar : c = '*'
    · subst hstar
      rw [isInstance_star_iff, partOf, if_pos rfl, MatchesFrom]
      simp only [ih]
    · rw [isInstance_literal_iff hstar, partOf, if_neg hstar, MatchesFrom]
      simp only [ih]

theorem foundIn_expression_iff {pattern text : List Char} :
    FoundIn (expression pattern) text ↔ IsInstance pattern text := by
  unfold FoundIn
  simp only [readParts_expression, Option.some.injEq, exists_eq_left', MatchesFrom,
    matchesFrom_iff]
  constructor
  · rintro ⟨before, after, rfl, rfl, h⟩
    exact h
  · intro h
    exact ⟨[], text, rfl, rfl, h⟩

/-! ### Lists of patterns -/

/-- Whether a pattern lets a path pass: the star all paths, a pattern without stars itself, and any
other the paths that its expression matches. -/
def Passes (path pattern : String) : Prop :=
  pattern = "*" ∨
    if '*' ∈ pattern.toList then FoundIn (expression pattern.toList) path.toList
    else path = pattern

theorem passes_iff {path pattern : String} :
    Passes path pattern ↔ pattern = "*" ∨ IsInstance pattern.toList path.toList := by
  unfold Passes
  split
  · rw [foundIn_expression_iff]
  · next hstar => rw [isInstance_iff_eq hstar, String.toList_inj]

/-- A pattern that is too large for its automaton allows nothing. -/
theorem isAllowed_eq_true_iff {path : String} {patterns : List String} :
    isAllowed path patterns = true ↔
      ∃ pattern ∈ patterns, pattern = "*" ∨
        isUsable pattern.toList = true ∧ IsInstance pattern.toList path.toList := by
  simp only [isAllowed, List.any_eq_true, Bool.or_eq_true, beq_iff_eq, Bool.and_eq_true,
    accepts_iff_isInstance]

/-- A path is allowed if and only if one of the patterns is the star, or the path itself, or has the
path as an instance. For patterns that can be used the expressions say the same. -/
theorem allowed_iff_instance {path : String} {patterns : List String}
    (husable : ∀ pattern ∈ patterns, isUsable pattern.toList = true) :
    (isAllowed path patterns = true ↔
      ∃ pattern ∈ patterns, pattern = "*" ∨ pattern = path ∨
        IsInstance pattern.toList path.toList) ∧
    (isAllowed path patterns = true ↔ ∃ pattern ∈ patterns, Passes path pattern) := by
  have hallowed : isAllowed path patterns = true ↔
      ∃ pattern ∈ patterns, pattern = "*" ∨ IsInstance pattern.toList path.toList := by
    rw [isAllowed_eq_true_iff]
    refine exists_congr fun pattern => and_congr_right fun hpattern => ?_
    rw [husable pattern hpattern, eq_self, true_and]
  have hself : ∀ pattern : String, pattern = path ∨ IsInstance pattern.toList path.toList ↔
      IsInstance pattern.toList path.toList := by
    intro pattern
    refine or_iff_right_of_imp ?_
    rintro rfl
    exact isInstance_self _
  refine ⟨?_, ?_⟩
  · simp only [hallowed, hself]
  · simp only [hallowed, passes_iff]

/-- A backslash in front of two stars: it has to be there, and the stars are loose. -/
theorem allowed_iff_instance_of_backslash :
    (∀ pattern ∈ ["id", "a\\**"], isUsable pattern.toList = true) ∧
      (∃ pattern ∈ ["id", "a\\**"], pattern = "*" ∨ pattern = "a\\.b" ∨
        IsInstance pattern.toList "a\\.b".toList) ∧
      (∃ pattern ∈ ["id", "a\\**"], Passes "a\\.b" pattern) ∧
      ¬ ∃ pattern ∈ ["id", "a\\**"], Passes "a.b" pattern := by
  have husable : ∀ pattern ∈ ["id", "a\\**"], isUsable pattern.toList = true := by decide
  have hallowed : isAllowed "a\\.b" ["id", "a\\**"] = true := by decide
  have hrefused : ¬ isAllowed "a.b" ["id", "a\\**"] = true := by decide
  obtain ⟨hinstance, hpasses⟩ := @allowed_iff_instance "a\\.b" _ husable
  refine ⟨husable, hinstance.mp hallowed, hpasses.mp hallowed, fun hother => ?_⟩
  exact hrefused ((allowed_iff_instance husable).2.mpr hother)

end RestQuery.Glob
