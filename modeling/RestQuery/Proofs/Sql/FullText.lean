import RestQuery.Proofs.Sql.Phrase

/-!
# Full-text expressions

The template of a full-text expression names its columns in backticks, and the reader of templates
lets a backslash take the meaning of the character behind it. Where no backslash stands before a
backtick in this way, every name is one quoted part, so that the only mark is the one of the term.
A name that ends with a backslash, such as `a\`, runs into what follows it, and the mark is lost.
-/

namespace RestQuery

namespace Sql

/-! ### Parts of the template -/

namespace Template

/-- Whether a text between backticks ends where these end, read behind a backslash or not. -/
def closes : Bool → List Char → Bool
  | escaped, [] => !escaped
  | escaped, c :: cs => !(escaped && c == '\x60') && closes (!escaped && c == '\\') cs

theorem splitQuoted_cons {closing : Char} {escaped : Bool} {c : Char}
    (h : (!escaped && c == closing) = false) (cs : List Char) :
    splitQuoted closing escaped (c :: cs) =
      (c :: (splitQuoted closing (!escaped && c == '\\') cs).1,
        (splitQuoted closing (!escaped && c == '\\') cs).2) := by
  rw [splitQuoted.eq_def]
  simp [h]

theorem splitQuoted_of_closes {escaped : Bool} {text : List Char} (h : closes escaped text = true)
    {rest : List Char} (hrest : rest.head? ≠ some '\x60') :
    splitQuoted '\x60' escaped
        (text.flatMap (fun c => if c = '\x60' then [c, c] else [c]) ++ '\x60' :: rest) =
      (text.flatMap (fun c => if c = '\x60' then [c, c] else [c]) ++ ['\x60'], rest) := by
  induction text generalizing escaped with
  | nil =>
    obtain rfl : escaped = false := by simpa [closes] using h
    -- a second backtick would be the first one doubled
    cases rest with
    | nil => rfl
    | cons next rest =>
      have hnext : next ≠ '\x60' := by simpa using hrest
      simp [splitQuoted, hnext]
  | cons c text ih =>
    rw [closes, Bool.and_eq_true] at h
    by_cases hc : c = '\x60'
    · obtain rfl : escaped = false := by simpa [hc] using h.1
      have htext : closes false text = true := by simpa [hc] using h.2
      simp [hc, splitQuoted, ih htext]
    · rw [List.flatMap_cons, if_neg hc, List.singleton_append, List.cons_append,
        splitQuoted_cons (by simp [hc]), ih h.2]
      rfl

theorem parts_single {c : Char} (hword : startsWord c = false) (hquote : closingOf c = none)
    (cs : List Char) : parts (c :: cs) = .single c :: parts cs := by
  rw [parts, hword, hquote]
  rfl

theorem parts_word {c : Char} {ds rest : List Char} (hword : startsWord c = true)
    (hds : ds.all continuesWord = true) (hrest : rest.head?.all (!continuesWord ·) = true) :
    parts (c :: (ds ++ rest)) = .word (c :: ds) :: parts rest := by
  have hnone : rest.takeWhile continuesWord = [] ∧ rest.dropWhile continuesWord = rest := by
    cases rest with
    | nil => exact ⟨rfl, rfl⟩
    | cons e rest =>
      have he : continuesWord e = false := by simpa using hrest
      simp [he]
  have hall : ∀ d ∈ ds, continuesWord d = true := List.all_eq_true.mp hds
  rw [parts, if_pos hword, List.takeWhile_append_of_pos hall, List.dropWhile_append_of_pos hall,
    hnone.1, hnone.2, List.append_nil]

theorem parts_backticked {identifier : String} (h : closes false identifier.toList = true)
    {rest : List Char} (hrest : rest.head? ≠ some '\x60') :
    parts (backticked identifier ++ rest) = .quoted (backticked identifier) :: parts rest := by
  have hword : startsWord '\x60' = false := by decide +kernel
  have hclosing : closingOf '\x60' = some '\x60' := rfl
  rw [backticked, List.cons_append, List.append_assoc, List.singleton_append, parts, hword,
    hclosing]
  simp [splitQuoted_of_closes h hrest]

def Part.text : Part → List Char
  | word text => text
  | quoted text => text
  | single c => [c]

theorem Part.segment_eq (part : Part) : part.segment = .text part.text := by cases part <;> rfl

theorem segmentsFrom_cons {mark : Mark} {p : Part} (h : p ≠ .single mark.sign) (next : Nat)
    (ps : List Part) :
    segmentsFrom mark next (p :: ps) = p.segment :: segmentsFrom mark next ps := by
  rw [segmentsFrom.eq_def]
  simp [h]

/-- Parts that are not marks are text. -/
theorem segmentsFrom_append {mark : Mark} {ps : List Part} (h : .single mark.sign ∉ ps) (next : Nat)
    (qs : List Part) : segmentsFrom mark next (ps ++ qs) =
      ps.map (fun p => .text p.text) ++ segmentsFrom mark next qs := by
  induction ps with
  | nil => rfl
  | cons p ps ih =>
    rw [List.mem_cons, not_or] at h
    rw [List.cons_append, segmentsFrom_cons (Ne.symm h.1), ih h.2, p.segment_eq]
    rfl

theorem segmentsFrom_of_notMem {mark : Mark} {ps : List Part} (h : .single mark.sign ∉ ps)
    (next : Nat) : segmentsFrom mark next ps = ps.map fun p => .text p.text := by
  have happend := segmentsFrom_append h next []
  rwa [List.append_nil, segmentsFrom, List.append_nil] at happend

theorem segmentsFrom_mark {mark : Mark} (hnumbered : mark.numbered = false) {ps : List Part}
    (h : .single mark.sign ∉ ps) (next : Nat) :
    segmentsFrom mark next (.single mark.sign :: ps) =
      .value next :: segmentsFrom mark (next + 1) ps := by
  cases ps with
  | nil => simp [segmentsFrom]
  | cons p ps =>
    rw [List.mem_cons, not_or] at h
    have hnumber : mark.numberWord p = none := by cases p <;> simp [Mark.numberWord, hnumbered]
    rw [segmentsFrom, if_pos rfl, if_neg (Ne.symm h.1), hnumber]

end Template

open Template

/-! ### The tokens of the expression -/

/-- Whether both names of a column end where their backticks do. -/
def ColumnRef.isSeparate (ref : ColumnRef) : Bool :=
  closes false ref.table.toList && closes false ref.column.toList

def ColumnRef.parts (ref : ColumnRef) : List Part :=
  [.quoted (backticked ref.table), .single '.', .quoted (backticked ref.column)]

theorem ColumnRef.parts_backtickedRef {ref : ColumnRef} (h : ref.isSeparate = true)
    {rest : List Char} (hrest : rest.head? ≠ some '\x60') :
    Template.parts (backtickedRef ref ++ rest) = ref.parts ++ Template.parts rest := by
  rw [isSeparate, Bool.and_eq_true] at h
  have hdot : startsWord '.' = false := by decide +kernel
  rw [backtickedRef, List.append_assoc, List.cons_append, parts_backticked h.1 (by simp),
    parts_single hdot rfl, parts_backticked h.2 hrest]
  rfl

/-- The parts of the columns of an expression, with commas between them. -/
def columnParts : List ColumnRef → List Part
  | [] => []
  | [ref] => ref.parts
  | ref :: next :: rest => ref.parts ++ .single ',' :: .single ' ' :: columnParts (next :: rest)

theorem parts_columns {columns : List ColumnRef} (h : ∀ ref ∈ columns, ref.isSeparate = true)
    {rest : List Char} (hrest : rest.head? ≠ some '\x60') :
    Template.parts ([',', ' '].intercalate (columns.map backtickedRef) ++ rest) =
      columnParts columns ++ Template.parts rest := by
  have hcomma : startsWord ',' = false := by decide +kernel
  have hblank : startsWord ' ' = false := by decide +kernel
  induction columns with
  | nil => rfl
  | cons ref columns ih =>
    obtain ⟨href, hcolumns⟩ := List.forall_mem_cons.mp h
    cases columns with
    | nil => simpa [columnParts] using ref.parts_backtickedRef href hrest
    | cons next columns =>
      rw [List.map_cons, List.map_cons, List.intercalate_cons_cons, List.append_assoc,
        List.append_assoc, ref.parts_backtickedRef href (by simp), List.cons_append,
        parts_single hcomma rfl, List.cons_append, parts_single hblank rfl, List.nil_append,
        ← List.map_cons, ih hcolumns, columnParts, List.append_assoc]
      rfl

theorem single_notMem_columnParts {c : Char} (h : c ∉ ['.', ',', ' ']) (columns : List ColumnRef) :
    Part.single c ∉ columnParts columns := by
  simp only [List.mem_cons, List.not_mem_nil, or_false, not_or] at h
  induction columns with
  | nil => exact List.not_mem_nil
  | cons ref columns ih =>
    cases columns with
    | nil => simp [columnParts, ColumnRef.parts, h.1]
    | cons next columns => simpa [columnParts, ColumnRef.parts, h] using ih

/-- Fixed text in the parts that it was read in. -/
def textTokens (ps : List Part) : List Token := ps.map fun p => .raw (String.ofList p.text)

/-- The parts of the expression in front of its columns. -/
def matchParts : List Part := [.word "MATCH".toList, .single ' ', .single '(']

/-- The parts of the expression between its columns and its term. -/
def againstParts : List Part :=
  [.single ')', .single ' ', .word "AGAINST".toList, .single ' ', .single '(']

/-- The parts of the expression behind its term. -/
def modeParts : List Part :=
  [.single ' ', .word "IN".toList, .single ' ', .word "BOOLEAN".toList, .single ' ',
    .word "MODE".toList, .single ')']

theorem parts_match (rest : List Char) :
    Template.parts ("MATCH (".toList ++ rest) = matchParts ++ Template.parts rest := by
  have hletters : startsWord 'M' = true ∧ "ATCH".toList.all continuesWord = true ∧
      continuesWord ' ' = false ∧ startsWord ' ' = false ∧ startsWord '(' = false := by
    decide +kernel
  obtain ⟨hfirst, hword, hbehind, hblank, hopening⟩ := hletters
  have htext : "MATCH (".toList ++ rest = 'M' :: ("ATCH".toList ++ ' ' :: '(' :: rest) := rfl
  rw [htext, parts_word hfirst hword (by simp [hbehind]), parts_single hblank rfl,
    parts_single hopening rfl]
  rfl

theorem parts_against : Template.parts ") AGAINST (? IN BOOLEAN MODE)".toList =
    againstParts ++ .single '?' :: modeParts := by decide +kernel

theorem parts_fullTextTemplate {columns : List ColumnRef}
    (h : ∀ ref ∈ columns, ref.isSeparate = true) :
    Template.parts (fullTextTemplate columns) =
      matchParts ++ columnParts columns ++ againstParts ++ .single '?' :: modeParts := by
  have hclosing : ") AGAINST (? IN BOOLEAN MODE)".toList.head? ≠ some '\x60' := by
    have hhead : ") AGAINST (? IN BOOLEAN MODE)".toList.head? = some ')' := rfl
    rw [hhead]
    exact nofun
  have htemplate : fullTextTemplate columns = "MATCH (".toList ++
      ([',', ' '].intercalate (columns.map backtickedRef) ++
        ") AGAINST (? IN BOOLEAN MODE)".toList) := List.append_assoc _ _ _
  rw [htemplate, parts_match, parts_columns h hclosing, parts_against]
  simp only [List.append_assoc]

theorem segments_fullTextTemplate {columns : List ColumnRef}
    (h : ∀ ref ∈ columns, ref.isSeparate = true) :
    Template.segments ⟨'?', false⟩ (fullTextTemplate columns) =
      (matchParts ++ columnParts columns ++ againstParts).map (fun p => .text p.text) ++
        .value 0 :: modeParts.map (fun p => .text p.text) := by
  have hbefore : Part.single '?' ∉ matchParts ++ columnParts columns ++ againstParts := by
    have hcolumns : Part.single '?' ∉ columnParts columns :=
      single_notMem_columnParts (by decide) columns
    simp only [List.mem_append, not_or]
    exact ⟨⟨by decide, hcolumns⟩, by decide⟩
  have hbehind : Part.single '?' ∉ modeParts := by decide
  rw [Template.segments, parts_fullTextTemplate h, segmentsFrom_append hbefore,
    segmentsFrom_mark rfl hbehind, segmentsFrom_of_notMem hbehind]

variable {dialect : Dialect}

theorem fullTextTokens_eq (hdialect : dialect ≠ .postgres) {columns : List ColumnRef}
    (h : ∀ ref ∈ columns, ref.isSeparate = true) (term : String) :
    fullTextTokens dialect columns term =
      textTokens (matchParts ++ columnParts columns ++ againstParts) ++
        .bound (.text term) :: textTokens modeParts := by
  have hmark : dialect.mark = ⟨'?', false⟩ := by
    cases dialect with
    | postgres => contradiction
    | _ => rfl
  rw [fullTextTokens, fillTemplate, hmark, segments_fullTextTemplate h]
  simp [textTokens, List.filterMap_append, List.filterMap_map]

/-- Where places are marked with `$` the `?` of the template is fixed text as well. -/
theorem fullTextTokens_postgres {columns : List ColumnRef}
    (h : ∀ ref ∈ columns, ref.isSeparate = true) (term : String) :
    fullTextTokens .postgres columns term =
      textTokens
        (matchParts ++ columnParts columns ++ againstParts ++ .single '?' :: modeParts) := by
  have hnone : Part.single '$' ∉
      matchParts ++ columnParts columns ++ againstParts ++ .single '?' :: modeParts := by
    have hcolumns : Part.single '$' ∉ columnParts columns :=
      single_notMem_columnParts (by decide) columns
    simp only [List.mem_append, not_or]
    exact ⟨⟨⟨by decide, hcolumns⟩, by decide⟩, by decide⟩
  have hmark : Dialect.mark .postgres = ⟨'$', true⟩ := rfl
  rw [fullTextTokens, fillTemplate, hmark, segments, parts_fullTextTemplate h,
    segmentsFrom_of_notMem hnone]
  simp [textTokens, List.filterMap_map]

/-! ### The expression as a phrase -/

/-- The column as the expression names it. -/
def ColumnRef.backtickedTokens (ref : ColumnRef) : List Token :=
  [.raw (String.ofList (backticked ref.table)), .raw ".",
    .raw (String.ofList (backticked ref.column))]

/-- The expression with its names as single tokens. -/
def fullTextPhrase (columns : List ColumnRef) (term : String) : List Token :=
  .raw "MATCH (" :: (commaSeparated (columns.map ColumnRef.backtickedTokens) ++
    [.raw ") AGAINST (", .bound (.text term), .raw " IN BOOLEAN MODE)"])

theorem cellsOf_textTokens (n : Nat) (ps : List Part) (rest : List Token) :
    cellsOf dialect n (textTokens ps ++ rest) =
      (ps.flatMap Part.text).map .char ++ cellsOf dialect n rest := by
  induction ps with
  | nil => rfl
  | cons p ps ih =>
    change (String.ofList p.text).toList.map Cell.char ++
      cellsOf dialect n (textTokens ps ++ rest) = _
    rw [ih, String.toList_ofList, List.flatMap_cons, List.map_append, List.append_assoc]

theorem cellsOf_backtickedTokens (n : Nat) (ref : ColumnRef) (rest : List Token) :
    cellsOf dialect n (ref.backtickedTokens ++ rest) =
      (ref.parts.flatMap Part.text).map .char ++ cellsOf dialect n rest := by
  simp [ColumnRef.backtickedTokens, cellsOf, ColumnRef.parts, Part.text]

theorem cellsOf_columns (n : Nat) (columns : List ColumnRef) (rest : List Token) :
    cellsOf dialect n (commaSeparated (columns.map ColumnRef.backtickedTokens) ++ rest) =
      ((columnParts columns).flatMap Part.text).map .char ++ cellsOf dialect n rest := by
  induction columns with
  | nil => rfl
  | cons ref columns ih =>
    cases columns with
    | nil => exact cellsOf_backtickedTokens n ref rest
    | cons next columns =>
      have hcomma : ", ".toList = [',', ' '] := rfl
      rw [List.map_cons, List.map_cons, commaSeparated, List.append_assoc,
        cellsOf_backtickedTokens, List.cons_append, cellsOf, ← List.map_cons, ih, columnParts,
        List.flatMap_append, hcomma]
      simp [Part.text]

theorem isPhrase_backticked (hdialect : dialect ≠ .postgres) (identifier : String) :
    IsPhrase dialect [.raw (String.ofList (backticked identifier))] := fun n => by
  rw [cellsOf, cellsOf, List.append_nil, String.toList_ofList]
  cases dialect with
  | postgres => contradiction
  | _ => exact phrase_quoted rfl rfl identifier.toList

theorem isPhrase_fullTextPhrase (hdialect : dialect ≠ .postgres) (columns : List ColumnRef)
    (term : String) : IsPhrase dialect (fullTextPhrase columns term) := by
  have hrefs : ∀ ts ∈ columns.map ColumnRef.backtickedTokens, IsPhrase dialect ts := by
    intro ts hts
    obtain ⟨ref, -, rfl⟩ := List.mem_map.mp hts
    have hcolumn := isPhrase_backticked hdialect ref.column
    exact (isPhrase_backticked hdialect ref.table).append (hcolumn.extends_behind rfl rfl)
  have hmode : Extends dialect [.raw " IN BOOLEAN MODE)"] := extends_raw rfl
  have hterm : IsPhrase dialect [.bound (.text term), .raw " IN BOOLEAN MODE)"] :=
    (isPhrase_bound (.text term)).append hmode
  exact ((isPhrase_commaSeparated hrefs).append (hterm.extends_behind rfl rfl)).behind rfl

variable (dialect) in
/-- Whether a full-text expression of these columns binds its term. -/
def bindsTerm (columns : List ColumnRef) : Bool :=
  dialect != .postgres && columns.all ColumnRef.isSeparate

theorem cellsOf_fullTextTokens {columns : List ColumnRef}
    (h : bindsTerm dialect columns = true) (term : String) (n : Nat) :
    cellsOf dialect n (fullTextTokens dialect columns term) =
      cellsOf dialect n (fullTextPhrase columns term) := by
  rw [bindsTerm, Bool.and_eq_true, bne_iff_ne, List.all_eq_true] at h
  have hmode : cellsOf dialect (n + 1) (textTokens modeParts) =
      " IN BOOLEAN MODE)".toList.map .char := rfl
  rw [fullTextTokens_eq h.1 h.2, cellsOf_textTokens, cellsOf, hmode, fullTextPhrase, cellsOf,
    cellsOf_columns, cellsOf, cellsOf, cellsOf, cellsOf, List.append_nil]
  simp [matchParts, againstParts, Part.text]

theorem isPhrase_fullTextTokens {columns : List ColumnRef} (h : bindsTerm dialect columns = true)
    (term : String) : IsPhrase dialect (fullTextTokens dialect columns term) := fun n => by
  rw [cellsOf_fullTextTokens h]
  rw [bindsTerm, Bool.and_eq_true, bne_iff_ne] at h
  exact isPhrase_fullTextPhrase h.1 columns term n

theorem boundValues_fullTextTokens {columns : List ColumnRef}
    (h : bindsTerm dialect columns = true) (term : String) :
    boundValues (fullTextTokens dialect columns term) = [.text term] := by
  rw [bindsTerm, Bool.and_eq_true, bne_iff_ne, List.all_eq_true] at h
  rw [fullTextTokens_eq h.1 h.2]
  simp [boundValues, textTokens, List.filterMap_append, List.filterMap_map]

theorem boundValues_fullTextTokens_postgres {columns : List ColumnRef}
    (h : ∀ ref ∈ columns, ref.isSeparate = true) (term : String) :
    boundValues (fullTextTokens .postgres columns term) = [] := by
  rw [fullTextTokens_postgres h]
  simp [boundValues, textTokens]

end Sql

end RestQuery
