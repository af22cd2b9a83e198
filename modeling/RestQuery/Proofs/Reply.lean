import RestQuery.Proofs.Calls

/-!
# What a reply is made of

A reply is rendered from the data, from one entry for each source of metadata and from the headers
of the range. An entry has the title of its source and holds a count or the text of a query. The
data of a collection have one item for each row that the first statement found: relations, computed
fields and cleaning change the rows, but neither add nor drop one.
-/

namespace RestQuery

open Sql

section

variable {db : Database} {sent sent' : List Statement}

/-- The count that the rows of an answer show. None of them shows 0, and so does a negative number;
a number from `2 ^ 63` on shows nothing. -/
inductive ShowsCount : List Row → Nat → Prop
  | noRow : ShowsCount [] 0
  | first {row : Row} {n : Int} (hvalue : row.get? countAlias = some (.number (.int n)))
      (hn : n < 9223372036854775808) (rest : List Row) : ShowsCount (row :: rest) n.toNat

theorem Database.countOfRows_eq_ok_iff {rows : List Row} {n : Nat} :
    countOfRows rows = .ok n ↔ ShowsCount rows n := by
  constructor
  · intro h
    unfold countOfRows at h
    split at h
    · exact Except.ok.inj h ▸ .noRow
    · split at h
      · next hvalue =>
        split at h
        · next hn => exact Except.ok.inj h ▸ .first hvalue hn _
        · cases h
      · cases h
  · rintro (_ | ⟨hvalue, hn, rest⟩)
    · rfl
    · simp only [countOfRows, hvalue]
      exact if_pos hn

theorem yields_count {statement : Statement} {n : Nat} :
    Yields (db.count statement) sent n sent' ↔
      sent' = sent ++ [statement] ∧ ∃ rows, db sent' = .rows rows ∧ ShowsCount rows n := by
  simp only [← Database.countOfRows_eq_ok_iff]
  unfold Database.count
  rw [yields_bind]
  constructor
  · rintro ⟨rows, middle, hask, h⟩
    cases hcount : Database.countOfRows rows with
    | error failure =>
      simp only [hcount] at h
      exact absurd h not_yields_throw
    | ok counted =>
      simp only [hcount] at h
      obtain ⟨rfl, rfl⟩ := yields_pure.mp h
      obtain ⟨hsent, hrows⟩ := yields_ask.mp hask
      exact ⟨hsent, rows, hrows, hcount⟩
  · rintro ⟨hsent, rows, hrows, hcount⟩
    refine ⟨rows, sent', yields_ask.mpr ⟨hsent, hrows⟩, ?_⟩
    simp only [hcount]
    exact yields_pure.mpr ⟨rfl, rfl⟩

/-! ### Metadata -/

namespace MetaSource

theorem yields_evaluateAll_cons {source : MetaSource} {rest : List MetaSource}
    {entries : List (String × Json)} :
    Yields (evaluateAll db (source :: rest)) sent entries sent' ↔
      ∃ value middle values, Yields (source.evaluate db) sent value middle ∧
        Yields (evaluateAll db rest) middle values sent' ∧
        entries = (source.title, value) :: values := by
  simp only [evaluateAll, yields_bind, yields_pure]
  constructor
  · rintro ⟨value, middle, hvalue, values, last, hvalues, rfl, rfl⟩
    exact ⟨value, middle, values, hvalue, hvalues, rfl⟩
  · rintro ⟨value, middle, values, hvalue, hvalues, rfl⟩
    exact ⟨value, middle, hvalue, values, sent', hvalues, rfl, rfl⟩

theorem yields_evaluate_count {title : String} {plan : Plan} {value : Json} :
    Yields ((count title plan).evaluate db) sent value sent' ↔
      ∃ n, Yields (db.count (.countOf plan)) sent n sent' ∧ value = .ofNat n := by
  simp only [evaluate, yields_bind, yields_pure]
  constructor
  · rintro ⟨n, middle, hcount, rfl, rfl⟩
    exact ⟨n, hcount, rfl⟩
  · rintro ⟨n, hcount, rfl⟩
    exact ⟨n, sent', hcount, rfl, rfl⟩

end MetaSource

/-! ### The rows of a collection -/

/-- Relations and computed fields are put into the rows that are there. -/
theorem Load.length_run {schema : Schema} {loads : Dict EagerLoad} {entity : Entity}
    {rows out : List Row} (h : Yields (Load.run db schema loads entity rows) sent out sent') :
    out.length = rows.length := by
  unfold Load.run level at h
  split at h
  · obtain ⟨rfl, -⟩ := yields_pure.mp h
    rfl
  · obtain ⟨loaded, middle, hloaded, h⟩ := yields_bind.mp h
    obtain ⟨rfl, -⟩ := yields_pure.mp h
    rw [List.length_map, (runSteps_loaded hloaded).length_eq]

namespace Request

theorem length_fetch {r : Request} {plan : Plan} {rows : List Row}
    (h : Yields (r.fetch db plan) sent rows sent') :
    ∃ found, db (sent ++ [.ofPlan plan]) = .rows found ∧ rows.length = found.length := by
  obtain ⟨found, middle, hfound, h⟩ := yields_bind.mp h
  obtain ⟨loaded, last, hloaded, h⟩ := yields_bind.mp h
  obtain ⟨rfl, -⟩ := yields_pure.mp h
  obtain ⟨rfl, hrows⟩ := yields_ask.mp hfound
  exact ⟨found, hrows, by rw [Cleaner.cleanRows, List.length_map, Load.length_run hloaded]⟩

/-- The data of a collection are an array of rows, as many as the first statement found. -/
theorem data_of_multiple {r : Request} {data : Json} {returned : Nat}
    (hmode : r.options.countMode = false) (hmultiple : r.multiple = true)
    (h : Yields (r.data db) sent (data, returned) sent') :
    ∃ found items, db (sent ++ [.ofPlan r.apply.plan]) = .rows found ∧
      data = .array items ∧ items.length = found.length ∧ returned = found.length := by
  simp only [Request.data, hmode, hmultiple, Bool.false_eq_true, if_false, if_true] at h
  obtain ⟨rows, middle, hrows, h⟩ := yields_bind.mp h
  obtain ⟨heq, -⟩ := yields_pure.mp h
  obtain ⟨rfl, rfl⟩ := Prod.mk.inj heq
  obtain ⟨found, hfound, hlength⟩ := length_fetch hrows
  exact ⟨found, _, hfound, rfl, by rw [List.length_map, hlength], hlength⟩

theorem yields_respond {r : Request} {reply : Reply} :
    Yields (r.respond db) sent reply sent' ↔
      ∃ data returned entries range sent₁ sent₂,
        Yields (r.apply.data db) sent (data, returned) sent₁ ∧
        Yields (MetaSource.evaluateAll db r.apply.metaSources) sent₁ entries sent₂ ∧
        Yields (r.apply.rangeHeaders db entries returned) sent₂ range sent' ∧
        reply = .render r.apply.options entries data range := by
  simp only [respond, yields_bind, yields_pure]
  constructor
  · rintro ⟨⟨data, returned⟩, sent₁, hdata, entries, sent₂, hentries, range, last, hrange, rfl, rfl⟩
    exact ⟨data, returned, entries, range, sent₁, sent₂, hdata, hentries, hrange, rfl⟩
  · rintro ⟨data, returned, entries, range, sent₁, sent₂, hdata, hentries, hrange, rfl⟩
    exact ⟨(data, returned), sent₁, hdata, entries, sent₂, hentries, range, sent', hrange, rfl, rfl⟩

end Request

end

end RestQuery
