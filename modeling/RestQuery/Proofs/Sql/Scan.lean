import Mathlib.Data.List.Basic
import RestQuery.Sql.Render

/-!
# Placeholders in a text

A text is read from left to right by a machine that knows how quoted parts and placeholders look,
and nothing else of the language. In a quoted part a quote is written twice; in some dialects a
backslash escapes there. Outside of quoted parts a question mark, or a dollar sign with a number,
is a placeholder.

Seen from outside, every token spells characters and values. A phrase is spelled so that the machine
finds a placeholder exactly at each value, and then stands where a blank, a comma, a parenthesis or
a dot can follow. Phrases are put together with separators.
-/

namespace RestQuery

namespace Sql

/-! ### The machine -/

/-- A character, or a placeholder with the number that is written in it. -/
inductive Cell where
  | char (c : Char)
  | mark (number : Option Nat)
deriving DecidableEq, Repr

inductive Place where
  /-- Outside of quoted parts, behind the letters of a word, which are held backwards. -/
  | outside (word : List Char)
  | inside (quote : Char) (escapes : Bool)
  /-- Behind a backslash that escapes. -/
  | escaped (quote : Char)
  /-- Behind a quote that closes, unless another one follows. -/
  | closed (quote : Char) (escapes : Bool)
  | numbering (number : Nat)
deriving DecidableEq, Repr

def isWordChar (c : Char) : Bool := c.isAlphanum || c == '_' || c == '$'

def Dialect.isQuote (dialect : Dialect) (c : Char) : Bool :=
  c == '\x27' || c == '"' || (c == '\x60' && dialect != .postgres)

/-- Whether a backslash escapes in the part that a quote opens behind a word. -/
def Dialect.escapesIn (dialect : Dialect) (word : List Char) (quote : Char) : Bool :=
  match dialect with
  | .sqlite => false
  | .mysql => quote != '\x60'
  | .postgres => quote == '\x27' && (word == ['E'] || word == ['e'])

namespace Place

def stepOutside (dialect : Dialect) (word : List Char) (c : Char) : List Cell × Place :=
  if c = '?' ∧ dialect ≠ .postgres then ([.mark none], outside [])
  -- a dollar sign inside of a word is a part of the word
  else if c = '$' ∧ dialect = .postgres ∧ word = [] then ([], numbering 0)
  else if dialect.isQuote c then ([.char c], inside c (dialect.escapesIn word c))
  else ([.char c], outside (if isWordChar c then c :: word else []))

def step (dialect : Dialect) : Place → Char → List Cell × Place
  | outside word, c => stepOutside dialect word c
  | inside quote escapes, c =>
    ([.char c],
      if c = quote then closed quote escapes
      else if escapes ∧ c = '\\' then escaped quote
      else inside quote escapes)
  | escaped quote, c => ([.char c], inside quote true)
  | closed quote escapes, c =>
    if c = quote then ([.char c], inside quote escapes) else stepOutside dialect [] c
  | numbering number, c =>
    if c.isDigit then ([], numbering (10 * number + (c.toNat - '0'.toNat)))
    else (.mark (some number) :: (stepOutside dialect [] c).1, (stepOutside dialect [] c).2)

def finish : Place → List Cell
  | numbering number => [.mark (some number)]
  | _ => []

def trace (dialect : Dialect) : Place → List Char → List Cell × Place
  | p, [] => ([], p)
  | p, c :: cs =>
    ((p.step dialect c).1 ++ (trace dialect (p.step dialect c).2 cs).1,
      (trace dialect (p.step dialect c).2 cs).2)

end Place

open Place

def scan (dialect : Dialect) (text : List Char) : List Cell :=
  (trace dialect (.outside []) text).1 ++ (trace dialect (.outside []) text).2.finish

namespace Place

variable {dialect : Dialect}

theorem trace_append (p : Place) (cs ds : List Char) :
    trace dialect p (cs ++ ds) =
      ((trace dialect p cs).1 ++ (trace dialect (trace dialect p cs).2 ds).1,
        (trace dialect (trace dialect p cs).2 ds).2) := by
  induction cs generalizing p with
  | nil => simp [trace]
  | cons c cs ih => simp [trace, ih]

/-! ### Plain text -/

/-- A character that is neither a quote nor the beginning of a placeholder. -/
def isPlain (c : Char) : Bool :=
  c != '?' && c != '$' && c != '\x27' && c != '"' && c != '\x60'

def wordAfter (word cs : List Char) : List Char :=
  cs.foldl (fun word c => if isWordChar c then c :: word else []) word

theorem stepOutside_plain (word : List Char) {c : Char} (hc : isPlain c = true) :
    stepOutside dialect word c = ([.char c], outside (if isWordChar c then c :: word else [])) := by
  simp only [isPlain, Bool.and_eq_true, bne_iff_ne, ne_eq] at hc
  obtain ⟨⟨⟨⟨hask, hdollar⟩, hsingle⟩, hdouble⟩, htick⟩ := hc
  simp [stepOutside, hask, hdollar, Dialect.isQuote, hsingle, hdouble, htick]

theorem trace_plain (word : List Char) {cs : List Char} (h : cs.all isPlain = true) :
    trace dialect (.outside word) cs = (cs.map .char, .outside (wordAfter word cs)) := by
  induction cs generalizing word with
  | nil => rfl
  | cons c cs ih =>
    rw [List.all_cons, Bool.and_eq_true] at h
    have hstep : step dialect (.outside word) c =
        ([.char c], outside (if isWordChar c then c :: word else [])) := stepOutside_plain word h.1
    simp [trace, hstep, ih _ h.2, wordAfter]

/-! ### Places that a phrase may end at -/

/-- The place where a quoted part, a placeholder or a word may have ended. -/
def isResting (dialect : Dialect) : Place → Bool
  | outside _ => true
  | closed quote _ => dialect.isQuote quote
  | numbering _ => true
  | _ => false

/-- A character that ends words, quoted parts and placeholders. -/
def isSoft (c : Char) : Bool := c == ' ' || c == ',' || c == ')' || c == '.'

theorem stepOutside_soft (word : List Char) {c : Char} (hc : isSoft c = true) :
    stepOutside dialect word c = ([.char c], .outside []) := by
  have hcases : c = ' ' ∨ c = ',' ∨ c = ')' ∨ c = '.' := by
    simpa [isSoft, or_assoc] using hc
  rcases hcases with rfl | rfl | rfl | rfl <;> exact stepOutside_plain word rfl

theorem step_soft {p : Place} (hp : p.isResting dialect = true) {c : Char}
    (hc : isSoft c = true) :
    p.step dialect c = (p.finish ++ [.char c], .outside []) := by
  have hcases : c = ' ' ∨ c = ',' ∨ c = ')' ∨ c = '.' := by
    simpa [isSoft, or_assoc] using hc
  cases p with
  | outside word => exact stepOutside_soft word hc
  | inside quote escapes => cases hp
  | escaped quote => cases hp
  | closed quote escapes =>
    have hne : c ≠ quote := by
      rintro rfl
      rcases hcases with rfl | rfl | rfl | rfl <;> simp [isResting, Dialect.isQuote] at hp
    simp [step, hne, stepOutside_soft [] hc, finish]
  | numbering number =>
    have hdigit : c.isDigit = false := by rcases hcases with rfl | rfl | rfl | rfl <;> rfl
    simp [step, hdigit, stepOutside_soft [] hc, finish]

theorem trace_soft {p : Place} (hp : p.isResting dialect = true) {c : Char}
    (hc : isSoft c = true) (cs : List Char) :
    trace dialect p (c :: cs) =
      (p.finish ++ (trace dialect (.outside []) (c :: cs)).1,
        (trace dialect (.outside []) (c :: cs)).2) := by
  have houtside : step dialect (.outside []) c = ([.char c], .outside []) :=
    stepOutside_soft [] hc
  simp [trace, step_soft hp hc, houtside]

/-! ### Quoted parts -/

theorem trace_inside (quote : Char) (text rest : List Char) :
    trace dialect (.inside quote false)
        (text.flatMap (fun c => if c = quote then [c, c] else [c]) ++ rest) =
      ((text.flatMap (fun c => if c = quote then [c, c] else [c])).map .char ++
          (trace dialect (.inside quote false) rest).1,
        (trace dialect (.inside quote false) rest).2) := by
  induction text with
  | nil => simp
  | cons c text ih =>
    by_cases hc : c = quote
    · simp [hc, trace, step, ih]
    · simp [hc, trace, step, ih]

theorem trace_quoted {quote : Char} {word : List Char} (hquote : dialect.isQuote quote = true)
    (hescapes : dialect.escapesIn word quote = false) (text : List Char) :
    trace dialect (.outside word)
        (quote :: (text.flatMap (fun c => if c = quote then [c, c] else [c]) ++ [quote])) =
      ((quote :: (text.flatMap (fun c => if c = quote then [c, c] else [c]) ++ [quote])).map
        .char, .closed quote false) := by
  have hne : quote ≠ '?' ∧ quote ≠ '$' := by
    constructor <;> rintro rfl <;> simp [Dialect.isQuote] at hquote
  have hopen : step dialect (.outside word) quote = ([.char quote], .inside quote false) := by
    simp [step, stepOutside, hne, hquote, hescapes]
  rw [trace, hopen, trace_inside]
  simp [trace, step]

theorem trace_inside_escaping (text rest : List Char) :
    trace dialect (.inside '\x27' true) (text.flatMap escapeChar ++ rest) =
      ((text.flatMap escapeChar).map .char ++ (trace dialect (.inside '\x27' true) rest).1,
        (trace dialect (.inside '\x27' true) rest).2) := by
  induction text with
  | nil => simp
  | cons c text ih =>
    have hpair : ∀ d : Char, trace dialect (.inside '\x27' true) ['\\', d] =
        ([.char '\\', .char d], .inside '\x27' true) := fun d => by simp [trace, step]
    have hchar : trace dialect (.inside '\x27' true) (escapeChar c) =
        ((escapeChar c).map .char, .inside '\x27' true) := by
      unfold escapeChar
      split
      · exact hpair c
      · next hspecial =>
        have hne : c ≠ '\\' ∧ c ≠ '\x27' := by tauto
        split_ifs
        all_goals first | exact hpair _ | simp [trace, step, hne]
    rw [List.flatMap_cons, List.append_assoc, trace_append, hchar]
    simp [ih]

theorem trace_escaped {word : List Char} (hescapes : dialect.escapesIn word '\x27' = true)
    (text : List Char) :
    trace dialect (.outside word) ('\x27' :: (text.flatMap escapeChar ++ ['\x27'])) =
      (('\x27' :: (text.flatMap escapeChar ++ ['\x27'])).map .char, .closed '\x27' true) := by
  have hopen : step dialect (.outside word) '\x27' = ([.char '\x27'], .inside '\x27' true) := by
    simp [step, stepOutside, Dialect.isQuote, hescapes]
  rw [trace, hopen, trace_inside_escaping]
  simp [trace, step]

theorem flatMap_escapeChar_eq_self {text : List Char}
    (h : '\\' ∉ text.flatMap escapeChar) :
    text.flatMap escapeChar = text ∧ ∀ c ∈ text, c ≠ '\x27' := by
  induction text with
  | nil => simp
  | cons c text ih =>
    rw [List.flatMap_cons, List.mem_append, not_or] at h
    obtain ⟨htext, hquotes⟩ := ih h.2
    have hchar : escapeChar c = [c] ∧ c ≠ '\x27' := by
      have hc := h.1
      unfold escapeChar at hc ⊢
      split_ifs at hc ⊢ <;> simp_all
    rw [List.flatMap_cons, htext, hchar.1]
    exact ⟨rfl, List.forall_mem_cons.mpr ⟨hchar.2, hquotes⟩⟩

end Place

end Sql

end RestQuery
