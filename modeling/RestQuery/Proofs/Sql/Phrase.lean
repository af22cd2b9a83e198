import RestQuery.Proofs.Sql.Scan

/-!
# Phrases

The cells of a list of tokens are the characters of its text, with a numbered placeholder for every
value. Tokens are a phrase if their text is scanned to their cells and the scan ends where a soft
character can follow. Phrases that are joined by fixed text are a phrase again: this is how the
tokens of a statement are put together.
-/

namespace RestQuery

namespace Sql

open Place

/-! ### Cells of tokens -/

def Cell.spelling : Cell → List Char
  | char c => [c]
  | mark none => ['?']
  | mark (some n) => '$' :: (toString n).toList

def spell (cells : List Cell) : List Char := cells.flatMap Cell.spelling

/-- The number that is written in the `n`-th placeholder. -/
def Dialect.numberOf (dialect : Dialect) (n : Nat) : Option Nat :=
  match dialect with
  | .postgres => some n
  | _ => none

/-- The cells of tokens, where the next placeholder is the `n`-th. -/
def cellsOf (dialect : Dialect) : Nat → List Token → List Cell
  | _, [] => []
  | n, .raw text :: rest => text.toList.map .char ++ cellsOf dialect n rest
  | n, .name identifier :: rest =>
    (quoteName dialect identifier).map .char ++ cellsOf dialect n rest
  | n, .bound _ :: rest => .mark (dialect.numberOf n) :: cellsOf dialect (n + 1) rest
  | n, .literal text :: rest => (quoteText dialect text).map .char ++ cellsOf dialect n rest

@[simp] theorem spell_nil : spell [] = [] := rfl

@[simp] theorem spell_append (xs ys : List Cell) : spell (xs ++ ys) = spell xs ++ spell ys :=
  List.flatMap_append

@[simp] theorem spell_cons (x : Cell) (xs : List Cell) : spell (x :: xs) = x.spelling ++ spell xs :=
  List.flatMap_cons

@[simp] theorem spell_map_char (cs : List Char) : spell (cs.map .char) = cs := by
  induction cs with
  | nil => rfl
  | cons c cs ih => rw [List.map_cons, spell_cons, ih]; rfl

variable {dialect : Dialect}

theorem spelling_mark_numberOf (n : Nat) :
    (Cell.mark (dialect.numberOf n)).spelling = placeholder dialect n := by
  cases dialect <;> rfl

theorem spell_cellsOf (n : Nat) (ts : List Token) :
    spell (cellsOf dialect n ts) = parameterized dialect n ts := by
  induction ts generalizing n with
  | nil => rfl
  | cons t ts ih => cases t <;> simp [cellsOf, parameterized, spelling_mark_numberOf, ih]

theorem cellsOf_append (n : Nat) (ts us : List Token) :
    cellsOf dialect n (ts ++ us) =
      cellsOf dialect n ts ++ cellsOf dialect (n + (boundValues ts).length) us := by
  induction ts generalizing n with
  | nil => rfl
  | cons t ts ih => cases t <;> simp [cellsOf, boundValues, ih, Nat.add_assoc, Nat.add_comm 1]

/-! ### Digits of a placeholder -/

theorem trace_digits {ds : List Char} (h : ∀ c ∈ ds, c.isDigit = true) (number : Nat) :
    trace dialect (.numbering number) ds = ([], .numbering (Nat.ofDigitChars 10 ds number)) := by
  induction ds generalizing number with
  | nil => rfl
  | cons c ds ih =>
    rw [List.forall_mem_cons] at h
    simp [trace, step, h.1, ih h.2, Nat.ofDigitChars_cons]

theorem trace_placeholder (n : Nat) :
    scan dialect (placeholder dialect n) = [.mark (dialect.numberOf n)] ∧
      (trace dialect (.outside []) (placeholder dialect n)).2.isResting dialect = true := by
  cases dialect with
  | sqlite => exact ⟨rfl, rfl⟩
  | mysql => exact ⟨rfl, rfl⟩
  | postgres =>
    have hdigits : trace .postgres (.numbering 0) (Nat.toDigits 10 n) = ([], .numbering n) := by
      have hds : ∀ c ∈ Nat.toDigits 10 n, c.isDigit = true := fun c hc =>
        Nat.isDigit_of_mem_toDigits (by decide) (by decide) hc
      rw [trace_digits hds, Nat.ofDigitChars_toDigits (by decide) (by decide)]
    have htrace : trace .postgres (.outside []) (placeholder .postgres n) =
        ([], .numbering n) := by
      simp [placeholder, trace, step, stepOutside, hdigits]
    simp [scan, htrace, finish, Dialect.numberOf, isResting]

/-! ### Phrases -/

variable (dialect) in
/-- Cells that are found again in their spelling, which may be followed by a soft character. -/
def Phrase (cells : List Cell) : Prop :=
  scan dialect (spell cells) = cells ∧
    (trace dialect (.outside []) (spell cells)).2.isResting dialect = true

variable (dialect) in
/-- Cells behind which the reading stands as at a beginning. -/
def Clear (cells : List Cell) : Prop :=
  trace dialect (.outside []) (spell cells) = (cells, .outside [])

theorem phrase_of_trace {cells : List Cell} {p : Place}
    (h : trace dialect (.outside []) (spell cells) = (cells, p)) (hfinish : p.finish = [])
    (hp : p.isResting dialect = true) : Phrase dialect cells := by
  unfold Phrase scan
  rw [h, hfinish, List.append_nil]
  exact ⟨rfl, hp⟩

theorem phrase_chars {cs : List Char} {p : Place}
    (h : trace dialect (.outside []) cs = (cs.map .char, p)) (hfinish : p.finish = [])
    (hp : p.isResting dialect = true) : Phrase dialect (cs.map .char) := by
  refine phrase_of_trace ?_ hfinish hp
  rwa [spell_map_char]

theorem Clear.append_phrase {xs ys : List Cell} (hxs : Clear dialect xs)
    (hys : Phrase dialect ys) : Phrase dialect (xs ++ ys) := by
  unfold Clear at hxs
  unfold Phrase scan at hys ⊢
  rw [spell_append, trace_append, hxs, List.append_assoc, hys.1]
  exact ⟨rfl, hys.2⟩

/-! ### Fixed text between phrases -/

/-- Fixed text that can follow a phrase. -/
def isFollowing : List Char → Bool
  | [] => false
  | c :: cs => isSoft c && (c :: cs).all isPlain

/-- Fixed text that a phrase can follow. -/
def isLeading (text : List Char) : Bool := text.all isPlain && wordAfter [] text == []

/-- The text behind a phrase ends what the phrase left open, such as a number, and is read as it
stands. -/
theorem Phrase.trace_append_text {xs : List Cell} (hxs : Phrase dialect xs) {text : List Char}
    (h : isFollowing text = true) :
    trace dialect (.outside []) (spell (xs ++ text.map .char)) =
      (xs ++ text.map .char, .outside (wordAfter [] text)) := by
  obtain ⟨hscan, hresting⟩ := hxs
  cases text with
  | nil => cases h
  | cons c cs =>
    rw [isFollowing, Bool.and_eq_true] at h
    rw [spell_append, spell_map_char, trace_append, trace_soft hresting h.1, trace_plain [] h.2,
      ← List.append_assoc]
    exact congrArg (fun ys => (ys ++ _, _)) hscan

theorem Clear.of_isLeading {text : List Char} (h : isLeading text = true) :
    Clear dialect (text.map .char) := by
  rw [isLeading, Bool.and_eq_true, beq_iff_eq] at h
  rw [Clear, spell_map_char, trace_plain [] h.1, h.2]

theorem Phrase.clear_append {xs : List Cell} (hxs : Phrase dialect xs) {text : List Char}
    (h : isFollowing text = true) (h' : isLeading text = true) :
    Clear dialect (xs ++ text.map .char) := by
  rw [isLeading, Bool.and_eq_true, beq_iff_eq] at h'
  rw [Clear, hxs.trace_append_text h, h'.2]

/-! ### Phrases of tokens -/

/-- Tokens that are a phrase, whatever the number of the next placeholder. -/
def IsPhrase (dialect : Dialect) (ts : List Token) : Prop :=
  ∀ n, Phrase dialect (cellsOf dialect n ts)

/-- Tokens that make phrases of phrases. -/
def Extends (dialect : Dialect) (us : List Token) : Prop :=
  ∀ ts, IsPhrase dialect ts → IsPhrase dialect (ts ++ us)

theorem IsPhrase.append {ts us : List Token} (hts : IsPhrase dialect ts)
    (hus : Extends dialect us) : IsPhrase dialect (ts ++ us) := hus ts hts

theorem extends_nil : Extends dialect [] := fun ts hts => by rwa [List.append_nil]

theorem Extends.append {us vs : List Token} (hus : Extends dialect us)
    (hvs : Extends dialect vs) : Extends dialect (us ++ vs) := fun ts hts => by
  rw [← List.append_assoc]
  exact hvs _ (hus ts hts)

theorem isPhrase_nil : IsPhrase dialect [] := fun _ => phrase_of_trace rfl rfl rfl

theorem isPhrase_raw {text : String} (h : text.toList.all isPlain = true) :
    IsPhrase dialect [.raw text] := fun n => by
  rw [cellsOf, cellsOf, List.append_nil]
  exact phrase_chars (trace_plain [] h) rfl rfl

theorem isPhrase_bound (value : Value) : IsPhrase dialect [.bound value] := fun n => by
  unfold Phrase
  rw [spell_cellsOf, parameterized, parameterized, List.append_nil]
  exact trace_placeholder n

theorem IsPhrase.behind {text : String} {ts : List Token} (h : isLeading text.toList = true)
    (hts : IsPhrase dialect ts) : IsPhrase dialect (.raw text :: ts) := fun n =>
  (Clear.of_isLeading h).append_phrase (hts n)

theorem extends_raw {text : String} (h : isFollowing text.toList = true) :
    Extends dialect [.raw text] := fun ts hts n => by
  rw [cellsOf_append, cellsOf, cellsOf, List.append_nil]
  exact phrase_of_trace ((hts n).trace_append_text h) rfl rfl

/-- A phrase that follows fixed text can follow a phrase. -/
theorem IsPhrase.extends_behind {text : String} {us : List Token} (hus : IsPhrase dialect us)
    (h : isFollowing text.toList = true) (h' : isLeading text.toList = true) :
    Extends dialect (.raw text :: us) := fun ts hts n => by
  rw [cellsOf_append, cellsOf, ← List.append_assoc]
  exact ((hts n).clear_append h h').append_phrase (hus _)

theorem isPhrase_commaSeparated {lists : List (List Token)}
    (h : ∀ ts ∈ lists, IsPhrase dialect ts) : IsPhrase dialect (commaSeparated lists) := by
  induction lists with
  | nil => exact isPhrase_nil
  | cons ts rest ih =>
    obtain ⟨hts, hrest⟩ := List.forall_mem_cons.mp h
    cases rest with
    | nil => exact hts
    | cons next rest => exact hts.append ((ih hrest).extends_behind rfl rfl)

/-! ### Quoted parts -/

theorem phrase_quoted {quote : Char} (hquote : dialect.isQuote quote = true)
    (hescapes : dialect.escapesIn [] quote = false) (text : List Char) :
    Phrase dialect
      ((quote :: (text.flatMap (fun c => if c = quote then [c, c] else [c]) ++ [quote])).map
        .char) :=
  phrase_chars (trace_quoted hquote hescapes text) rfl hquote

theorem isPhrase_name (identifier : String) : IsPhrase dialect [.name identifier] := fun n => by
  rw [cellsOf, cellsOf, List.append_nil]
  cases dialect <;> exact phrase_quoted rfl rfl identifier.toList

theorem flatMap_double_eq_self {quote : Char} {text : List Char} (h : ∀ c ∈ text, c ≠ quote) :
    text.flatMap (fun c => if c = quote then [c, c] else [c]) = text := by
  induction text with
  | nil => rfl
  | cons c text ih =>
    rw [List.forall_mem_cons] at h
    rw [List.flatMap_cons, if_neg h.1, ih h.2, List.singleton_append]

theorem phrase_quoteText (text : String) :
    Phrase dialect ((quoteText dialect text).map .char) := by
  cases dialect with
  | sqlite => exact phrase_quoted rfl rfl text.toList
  | mysql => exact phrase_chars (trace_escaped rfl text.toList) rfl rfl
  | postgres =>
    unfold quoteText
    by_cases hescaped : (text.toList.flatMap escapeChar).contains '\\' = true
    · have hword : step .postgres (.outside []) 'E' = ([.char 'E'], .outside ['E']) := rfl
      have htrace : trace .postgres (.outside [])
            ('E' :: '\x27' :: (text.toList.flatMap escapeChar ++ ['\x27'])) =
          (('E' :: '\x27' :: (text.toList.flatMap escapeChar ++ ['\x27'])).map .char,
            .closed '\x27' true) := by
        rw [trace, hword, trace_escaped rfl]
        rfl
      rw [if_pos hescaped]
      exact phrase_chars htrace rfl rfl
    · rw [if_neg hescaped]
      obtain ⟨hsame, hquotes⟩ := flatMap_escapeChar_eq_self (by simpa using hescaped)
      have hphrase : Phrase .postgres (('\x27' :: (text.toList.flatMap
          (fun c => if c = '\x27' then [c, c] else [c]) ++ ['\x27'])).map .char) :=
        phrase_quoted rfl rfl text.toList
      rwa [flatMap_double_eq_self hquotes, ← hsame] at hphrase

theorem isPhrase_literal (text : String) : IsPhrase dialect [.literal text] := fun n => by
  rw [cellsOf, cellsOf, List.append_nil]
  exact phrase_quoteText text

end Sql

end RestQuery
