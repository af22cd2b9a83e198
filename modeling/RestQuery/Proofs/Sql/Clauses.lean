import RestQuery.Proofs.Sql.FullText
import RestQuery.Proofs.Sql.Precedence

/-!
# Clauses as phrases

Every leaf is a phrase, if it binds its values, and so is every sequence that the grammar of
conditions reads; the clauses of a select are joined by fixed text. So the tokens of a select and of
a count are a phrase.
-/

namespace RestQuery

namespace Sql

variable {dialect : Dialect}

/-! ### Statements as phrases -/

theorem ColumnRef.isPhrase_tokens (ref : ColumnRef) : IsPhrase dialect ref.tokens :=
  (isPhrase_name ref.table).append ((isPhrase_name ref.column).extends_behind rfl rfl)

variable (dialect) in
def Leaf.bindsValues : Leaf → Bool
  | fullText columns _ => bindsTerm dialect columns
  | _ => true

theorem Leaf.isPhrase_tokens {l : Leaf} (h : l.bindsValues dialect = true) :
    IsPhrase dialect (l.tokens dialect) := by
  cases l with
  | compare ref op value =>
    have hvalue : IsPhrase dialect [.bound value] := isPhrase_bound value
    refine ref.isPhrase_tokens.append (hvalue.extends_behind ?_ ?_) <;> cases op <;> rfl
  | isNull ref negated =>
    refine ref.isPhrase_tokens.append (extends_raw ?_)
    cases negated <;> rfl
  | like ref pattern negated escape =>
    have hpattern : IsPhrase dialect [.bound (.text pattern)] := isPhrase_bound (.text pattern)
    have hlike : Extends dialect
        [.raw (if negated then " NOT LIKE " else " LIKE "), .bound (.text pattern)] := by
      refine hpattern.extends_behind ?_ ?_ <;> cases negated <;> rfl
    have hwhole := ref.isPhrase_tokens.append hlike
    cases escape with
    | none => exact hwhole.append extends_nil
    | some c => exact hwhole.append ((isPhrase_literal (escapeName c)).extends_behind rfl rfl)
  | isIn ref values negated =>
    cases values with
    | nil =>
      have hright : IsPhrase dialect [.bound (.small (if negated then 1 else 2))] :=
        isPhrase_bound _
      exact (isPhrase_bound (.small 1)).append (hright.extends_behind rfl rfl)
    | cons value values =>
      have hentries : IsPhrase dialect
          (commaSeparated ((value :: values).map fun value => [.bound value])) := by
        refine isPhrase_commaSeparated fun ts hts => ?_
        obtain ⟨entry, -, rfl⟩ := List.mem_map.mp hts
        exact isPhrase_bound entry
      have hlist : Extends dialect (.raw (if negated then " NOT IN (" else " IN (") ::
          commaSeparated ((value :: values).map fun value => [.bound value])) := by
        refine hentries.extends_behind ?_ ?_ <;> cases negated <;> rfl
      have hclosing : Extends dialect [.raw ")"] := extends_raw rfl
      have hwhole := (ref.isPhrase_tokens.append hlist).append hclosing
      simpa only [tokens, List.append_assoc, List.singleton_append] using hwhole
  | fullText columns term => exact isPhrase_fullTextTokens h term
  | constant holds => cases holds <;> exact isPhrase_raw rfl

theorem Reads.isPhrase {v : Leaf → Truth} {level : Level} {ps : List Piece} {t : Truth}
    (h : Reads v level ps t) (hleaves : ∀ l, .leaf l ∈ ps → l.bindsValues dialect = true) :
    IsPhrase dialect (ps.flatMap (Piece.tokens dialect)) := by
  induction h with
  | leaf l =>
    have hl := hleaves l (List.mem_singleton_self _)
    rw [List.flatMap_singleton]
    exact l.isPhrase_tokens hl
  | truth holds => cases holds <;> exact isPhrase_raw rfl
  | @group ps t _ ih =>
    have hinner := ih fun l hl => hleaves l (by simp [hl])
    have hclosing : Extends dialect [.raw ")"] := extends_raw rfl
    rw [List.flatMap_cons, List.flatMap_append, List.flatMap_singleton]
    exact (hinner.append hclosing).behind rfl
  | operand _ ih => exact ih hleaves
  | @and ps qs s t _ _ ihleft ihright =>
    have hleft := ihleft fun l hl => hleaves l (by simp [hl])
    have hright := ihright fun l hl => hleaves l (by simp [hl])
    rw [List.flatMap_append, List.flatMap_cons]
    exact hleft.append (hright.extends_behind rfl rfl)
  | conjunction _ ih => exact ih hleaves
  | @or ps qs s t _ _ ihleft ihright =>
    have hleft := ihleft fun l hl => hleaves l (by simp [hl])
    have hright := ihright fun l hl => hleaves l (by simp [hl])
    rw [List.flatMap_append, List.flatMap_cons]
    exact hleft.append (hright.extends_behind rfl rfl)

/-! ### Leaves of conditions -/

def Piece.leaf? : Piece → Option Leaf
  | leaf l => some l
  | _ => none

/-- The leaves of a sequence of pieces. -/
def leavesIn (ps : List Piece) : List Leaf := ps.filterMap Piece.leaf?

theorem leavesIn_append (ps qs : List Piece) : leavesIn (ps ++ qs) = leavesIn ps ++ leavesIn qs :=
  List.filterMap_append

theorem mem_leavesIn {l : Leaf} {ps : List Piece} (h : .leaf l ∈ ps) : l ∈ leavesIn ps :=
  List.mem_filterMap.mpr ⟨.leaf l, h, rfl⟩

namespace Condition

theorem leavesIn_parenthesize (bare : Bool) (ps : List Piece) :
    leavesIn (parenthesize bare ps) = leavesIn ps := by
  cases bare with
  | false =>
    change leavesIn (ps ++ [.closing]) = leavesIn ps
    rw [leavesIn_append]
    exact List.append_nil _
  | true => rfl

theorem leavesIn_operands (conjunctive : Bool) (parts : List Condition) :
    leavesIn (operands conjunctive parts) = parts.flatMap fun c => leavesIn c.pieces := by
  induction parts with
  | nil => rfl
  | cons c rest ih =>
    have hconnective : ∀ ps, leavesIn (connective conjunctive :: ps) = leavesIn ps := by
      cases conjunctive <;> exact fun ps => rfl
    rw [operands, hconnective, leavesIn_append, leavesIn_parenthesize, ih, List.flatMap_cons]

theorem leavesIn_chain (conjunctive : Bool) (parts : List Condition) :
    leavesIn (chain conjunctive parts) = parts.flatMap fun c => leavesIn c.pieces := by
  cases parts with
  | nil => rfl
  | cons c rest =>
    cases rest with
    | nil => rw [chain, List.flatMap_singleton]
    | cons next rest =>
      rw [chain, leavesIn_append, leavesIn_parenthesize, leavesIn_operands]
      rfl

theorem pieces_asMember (c : Condition) : c.asMember.pieces = c.pieces := by
  match c with
  | leaf _ => rfl
  | any [] | all [] | any [c] | all [c] | any (_ :: _ :: _) | all (_ :: _ :: _) => rfl

end Condition

/-- The leaves of the condition of a select. -/
def Select.leaves (s : Select) : List Leaf := s.conditions.flatMap fun c => leavesIn c.pieces

/-! ### Selects as phrases -/

variable (dialect) in
def Item.bindsValues : Item → Bool
  | score columns _ _ => bindsTerm dialect columns
  | _ => true

variable (dialect) in
/-- Every full-text expression of the select binds its term. -/
structure Select.BindsValues (s : Select) : Prop where
  items : ∀ item ∈ s.items, item.bindsValues dialect = true
  leaves : ∀ l ∈ s.leaves, l.bindsValues dialect = true

theorem Item.isPhrase_tokens {item : Item} (h : item.bindsValues dialect = true) :
    IsPhrase dialect (item.tokens dialect) := by
  have hlabel : ∀ label, Extends dialect [.raw " AS ", .name label] := fun label =>
    (isPhrase_name label).extends_behind rfl rfl
  cases item with
  | everyColumn table => exact (isPhrase_name table).append (extends_raw rfl)
  | column ref => exact ref.isPhrase_tokens
  | labelled ref label => exact ref.isPhrase_tokens.append (hlabel label)
  | score columns term label => exact (isPhrase_fullTextTokens h term).append (hlabel label)

theorem Join.extends_tokens (join : Join) : Extends dialect join.tokens := by
  have htable : Extends dialect [.raw " INNER JOIN ", .name join.table] :=
    (isPhrase_name join.table).extends_behind rfl rfl
  have hleft : Extends dialect (.raw " ON " :: join.left.tokens) :=
    join.left.isPhrase_tokens.extends_behind rfl rfl
  have hright : Extends dialect (.raw " = " :: join.right.tokens) :=
    join.right.isPhrase_tokens.extends_behind rfl rfl
  have hwhole := (htable.append hleft).append hright
  simpa only [tokens, List.append_assoc, List.cons_append, List.nil_append] using hwhole

theorem isPhrase_orderTokens (order : OrderTarget × Bool) :
    IsPhrase dialect (orderTokens order) := by
  obtain ⟨target, descending⟩ := order
  have hdirection : Extends dialect [.raw (if descending then " DESC" else " ASC")] := by
    cases descending <;> exact extends_raw rfl
  cases target with
  | column ref => exact ref.isPhrase_tokens.append hdirection
  | label name => exact (isPhrase_name name).append hdirection

theorem extends_whereTokens {conditions : List Condition}
    (h : ∀ l ∈ conditions.flatMap (fun c => leavesIn c.pieces), l.bindsValues dialect = true) :
    Extends dialect (whereTokens dialect conditions) := by
  cases conditions with
  | nil => exact extends_nil
  | cons c rest =>
    -- only the shape of the reading counts, so any truth values will do
    have hreads := Condition.reads_pieces (v := fun _ => .unknown) (.all (c :: rest))
    have hphrase := hreads.isPhrase fun l hl => h l (by
      rw [← Condition.leavesIn_chain true]
      exact mem_leavesIn hl)
    exact hphrase.extends_behind rfl rfl

theorem extends_orderByTokens (orders : List (OrderTarget × Bool)) :
    Extends dialect (orderByTokens orders) := by
  have horders : ∀ ts ∈ orders.map orderTokens, IsPhrase dialect ts := by
    intro ts hts
    obtain ⟨order, -, rfl⟩ := List.mem_map.mp hts
    exact isPhrase_orderTokens order
  cases orders with
  | nil => exact extends_nil
  | cons order rest => exact (isPhrase_commaSeparated horders).extends_behind rfl rfl

theorem extends_countTokens {keyword : String} (h : isFollowing keyword.toList = true)
    (h' : isLeading keyword.toList = true) (number : Option Nat) :
    Extends dialect (countTokens keyword number) := by
  cases number with
  | none => exact extends_nil
  | some n => exact (isPhrase_bound (.count n)).extends_behind h h'

theorem Select.tokens_eq (s : Select) :
    s.tokens dialect = .raw "SELECT " :: (commaSeparated (s.items.map (Item.tokens dialect)) ++
      [.raw " FROM ", .name s.table] ++ s.join.elim [] Join.tokens ++
      whereTokens dialect s.conditions ++ orderByTokens s.orders ++
      countTokens " LIMIT " s.limit ++ countTokens " OFFSET " s.offset) := by
  unfold tokens
  cases s.join <;> rfl

theorem Select.isPhrase_tokens {s : Select} (h : s.BindsValues dialect) :
    IsPhrase dialect (s.tokens dialect) := by
  have hitems : IsPhrase dialect (commaSeparated (s.items.map (Item.tokens dialect))) := by
    refine isPhrase_commaSeparated fun ts hts => ?_
    obtain ⟨item, hitem, rfl⟩ := List.mem_map.mp hts
    exact item.isPhrase_tokens (h.items item hitem)
  have htable : Extends dialect [.raw " FROM ", .name s.table] :=
    (isPhrase_name s.table).extends_behind rfl rfl
  have hjoin : Extends dialect (s.join.elim [] Join.tokens) := by
    cases s.join with
    | none => exact extends_nil
    | some join => exact join.extends_tokens
  rw [tokens_eq]
  exact ((((((hitems.append htable).append hjoin).append (extends_whereTokens h.leaves)).append
    (extends_orderByTokens s.orders)).append (extends_countTokens rfl rfl s.limit)).append
    (extends_countTokens rfl rfl s.offset)).behind rfl

theorem Select.isPhrase_count {s : Select} (h : s.BindsValues dialect) :
    IsPhrase dialect ((Statement.count s).tokens dialect) := by
  have hinner : Extends dialect (.raw " FROM (" :: s.tokens dialect) :=
    (Select.isPhrase_tokens h).extends_behind rfl rfl
  have halias : Extends dialect [.raw ") AS ", .name "count_table"] :=
    (isPhrase_name "count_table").extends_behind rfl rfl
  exact (((isPhrase_name countAlias).append hinner).append halias).behind rfl

end Sql

end RestQuery
