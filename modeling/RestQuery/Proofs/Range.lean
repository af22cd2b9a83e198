import RestQuery.Proofs.Echo
import RestQuery.Proofs.Headers
import RestQuery.Proofs.Reply

/-!
# The range of a page

A flat reply for a collection tells which of the matching rows its page shows, if the total count is
requested. The last statement that such a request sends is the one that counts the matching rows,
whether or not this count was requested as well, so the range agrees with it. If the database found
as many rows as the page has room for, the range runs over just these. The numbers of the range are
computed without wrapping around, and what is no printable character of ASCII is left out of the
name, so there is always a range to send.
-/

namespace RestQuery

open Sql

/-! ### The text of a range -/

theorem printable_contentRange (offset returned total : Nat) (name : String) :
    Printable (contentRange offset returned total name) := by
  have hname := printable_printable name
  have htotal := printable_toString total
  have hmarks : Printable " */" ∧ Printable " " ∧ Printable "-" ∧ Printable "/" := by
    simp [Printable]
  obtain ⟨hnone, hblank, hhyphen, hslash⟩ := hmarks
  unfold contentRange
  split
  · exact (hname.append hnone).append htotal
  · exact (((((hname.append hblank).append (printable_toString offset)).append hhyphen).append
      (printable_toString _)).append hslash).append htotal

theorem contentRangeHeaders_eq (offset returned total : Nat) (name : String) :
    contentRangeHeaders offset returned total name =
      [("content-range", contentRange offset returned total name)] := by
  have hsent : headerValue (.text (contentRange offset returned total name)) =
      some (contentRange offset returned total name) :=
    headerValue_of_printable (printable_contentRange offset returned total name)
  rw [contentRangeHeaders, hsent]

/-! ### The numbers of a range -/

def rangeUpTo (name : String) (offset last total : Nat) : String :=
  String.ofList (name.toList.filter fun c => 32 ≤ c.toNat ∧ c.toNat ≤ 126) ++
    " " ++ toString offset ++ "-" ++ toString last ++ "/" ++ toString total

/-- The text of a range that is empty. -/
def emptyRange (name : String) (total : Nat) : String :=
  String.ofList (name.toList.filter fun c => 32 ≤ c.toNat ∧ c.toNat ≤ 126) ++
    " */" ++ toString total

theorem printable_eq (name : String) :
    printable name = String.ofList (name.toList.filter fun c => 32 ≤ c.toNat ∧ c.toNat ≤ 126) := by
  refine congrArg String.ofList (List.filter_congr fun c _ => ?_)
  rw [Bool.decide_and]
  exact congrArg _ (decide_eq_decide.mpr Nat.lt_succ_iff)

theorem contentRange_zero (offset total : Nat) (name : String) :
    contentRange offset 0 total name = emptyRange name total := by
  rw [contentRange, if_pos rfl, printable_eq, emptyRange]

/-- The last row is the one that whole numbers without bounds give, and it is below the bound. -/
theorem exists_contentRange_eq {offset returned total : Nat} (hreturned : returned ≠ 0)
    (htotal : total < wordBound) (name : String) :
    ∃ last, contentRange offset returned total name = rangeUpTo name offset last total ∧
      last < wordBound ∧
      (last : Int) = min (offset + ((returned : Int) - 1)) (max 0 ((total : Int) - 1)) := by
  refine ⟨min (min (offset + (returned - 1)) (wordBound - 1)) (total - 1), ?_, ?_⟩
  · rw [contentRange, if_neg hreturned, printable_eq, rangeUpTo]
  · unfold wordBound at htotal ⊢
    omega

theorem last_of_full {offset returned total limit last : Nat} (hreturned : returned ≠ 0)
    (hfull : returned = min limit (total - offset))
    (hlast : (last : Int) = min (offset + ((returned : Int) - 1)) (max 0 ((total : Int) - 1))) :
    last + 1 = offset + returned ∧ last < total := by omega

theorem ShowsCount.lt_wordBound {rows : List Row} {n : Nat} (h : ShowsCount rows n) :
    n < wordBound := by
  unfold wordBound
  cases h with
  | noRow => decide
  | first => omega

/-! ### The count of a range -/

section

variable {db : Database} {sent middle sent' : List Statement}

theorem MetaSource.sent_of_queries {sources : List MetaSource}
    (hqueries : ∀ source ∈ sources, ∃ text, source = .query text) {entries : List (String × Json)}
    (h : Yields (evaluateAll db sources) sent entries sent') :
    sent' = sent ∧ entries.lookup filterCountTitle = none := by
  induction sources generalizing sent entries with
  | nil =>
    obtain ⟨rfl, rfl⟩ := yields_pure.mp h
    exact ⟨rfl, rfl⟩
  | cons source rest ih =>
    obtain ⟨⟨text, rfl⟩, hrest⟩ := List.forall_mem_cons.mp hqueries
    obtain ⟨value, between, values, hvalue, hvalues, rfl⟩ := yields_evaluateAll_cons.mp h
    obtain ⟨-, rfl⟩ := yields_pure.mp hvalue
    obtain ⟨hsent, hlookup⟩ := ih hrest hvalues
    have hne : (filterCountTitle == queryTitle) = false := by decide
    exact ⟨hsent, by rw [List.lookup_cons, title, hne]; exact hlookup⟩

namespace Request

variable {r : Request} {entries : List (String × Json)} {total : Nat}

theorem sent_of_filteredCount (htotal : r.options.totalCount = true)
    (hmeta : Yields (MetaSource.evaluateAll db r.metaSources) sent entries middle)
    (hcount : Yields (r.filteredCount db entries) middle total sent') :
    sent' = sent ++ [.countOf r.base, .countOf r.plan] ∧
      ∃ counted, db sent' = .rows counted ∧ ShowsCount counted total := by
  have hsources : r.metaSources = .count totalCountTitle r.base ::
      ((if r.options.filterCount then [.count filterCountTitle r.plan] else []) ++
        if r.clauses.page.pageDriven then
          [.query (r.params.toQuery [r.handler.settings.param "page"])] else []) := by
    rw [metaSources, htotal, if_pos rfl, List.append_assoc]
    rfl
  have hqueries : ∀ source ∈ (if r.clauses.page.pageDriven then
      [MetaSource.query (r.params.toQuery [r.handler.settings.param "page"])] else []),
      ∃ text, source = .query text := by
    intro source hsource
    exact ⟨_, List.mem_singleton.mp (List.mem_ite_nil_right.mp hsource).2⟩
  have hne : (filterCountTitle == totalCountTitle) = false := by decide
  rw [hsources] at hmeta
  obtain ⟨value, s₁, values, hvalue, hmeta, rfl⟩ := MetaSource.yields_evaluateAll_cons.mp hmeta
  obtain ⟨n, hn, rfl⟩ := MetaSource.yields_evaluate_count.mp hvalue
  obtain ⟨rfl, -⟩ := yields_count.mp hn
  rw [filteredCount, List.lookup_cons, MetaSource.title, hne] at hcount
  by_cases hfilter : r.options.filterCount = true
  · rw [if_pos hfilter, List.singleton_append] at hmeta
    obtain ⟨value, s₂, queries, hvalue, hmeta, rfl⟩ := MetaSource.yields_evaluateAll_cons.mp hmeta
    obtain ⟨m, hm, rfl⟩ := MetaSource.yields_evaluate_count.mp hvalue
    obtain ⟨rfl, counted, hcounted, hread⟩ := yields_count.mp hm
    obtain ⟨rfl, -⟩ := MetaSource.sent_of_queries hqueries hmeta
    simp only [MetaSource.title, List.lookup_cons_self] at hcount
    obtain ⟨rfl, rfl⟩ := yields_pure.mp hcount
    exact ⟨List.append_assoc _ _ _, counted, hcounted, hread⟩
  · rw [if_neg hfilter, List.nil_append] at hmeta
    obtain ⟨rfl, hlookup⟩ := MetaSource.sent_of_queries hqueries hmeta
    simp only [hlookup] at hcount
    obtain ⟨rfl, counted, hcounted, hread⟩ := yields_count.mp hcount
    exact ⟨List.append_assoc _ _ _, counted, hcounted, hread⟩

/-! ### The range of a reply -/

/-- A flat reply for a collection whose total count is requested has a range over the rows that its
first statement found and the number of rows that its last statement counted. -/
theorem range_of_respond {reply : Reply} (hmultiple : r.apply.multiple = true)
    (htotal : r.apply.options.totalCount = true) (hmode : r.apply.options.countMode = false)
    (hflat : r.apply.options.envelope = false) (h : Yields (r.respond db) sent reply sent') :
    ∃ found counted total items, db (sent ++ [.ofPlan r.apply.plan]) = .rows found ∧
      reply.body = .array items ∧ items.length = found.length ∧
      sent'.getLast? = some (.countOf r.apply.plan) ∧ db sent' = .rows counted ∧
      ShowsCount counted total ∧
      reply.headers.get? "content-range" = some (contentRange (r.apply.plan.offset.getD 0)
        found.length total r.apply.entity.table) := by
  obtain ⟨data, returned, entries, range, s₁, s₂, hdata, hmeta, hrange, rfl⟩ := yields_respond.mp h
  obtain ⟨found, items, hfound, rfl, hlength, rfl⟩ := data_of_multiple hmode hmultiple hdata
  rw [apply_apply] at hfound
  unfold rangeHeaders at hrange
  simp only [hmultiple, htotal, hmode, hflat, Bool.not_false, Bool.and_self, if_true] at hrange
  obtain ⟨total, s₃, hcount, hrange⟩ := yields_bind.mp hrange
  obtain ⟨rfl, rfl⟩ := yields_pure.mp hrange
  obtain ⟨rfl, counted, hcounted, hread⟩ := sent_of_filteredCount htotal hmeta hcount
  refine ⟨found, counted, total, items, hfound, ?_, hlength, ?_, hcounted, hread, ?_⟩
  · simp only [Reply.render, hmode, hflat, Bool.false_eq_true, if_false]
  · simp
  · simp only [Reply.render, hmode, hflat, Bool.false_eq_true, if_false, contentRangeHeaders_eq,
      Headers.extend, List.foldl_cons, List.foldl_nil]
    exact Dict.get?_insert_self _ _ _

end Request

end

namespace Request

/-- A flat reply for a collection has a range, if the total count is requested. Its total is the
number of matching rows, as the last statement counted them. If the first statement found as many
rows as the limit and that number allow, the range runs from the offset over as many rows, the last
of which is within the total; or it is empty, if there are none. Whatever the numbers and the name,
the range can be sent, it consists of printable characters, and its last row is the one that is
computed without bounds. -/
theorem range_describes_page :
    (∀ {handler : Handler} {entityName : String} {ps : Parameters} {r : Request},
      handler.parse entityName none ps = .ok r → r.options.totalCount = true →
      r.options.countMode = false → r.options.envelope = false →
      ∀ calls db before reply sent', Yields ((r.afterAll calls).respond db) before reply sent' →
        ∃ limit found counted total items,
          (r.afterAll calls).apply.plan.limit = some limit ∧
          db (before ++ [.ofPlan (r.afterAll calls).apply.plan]) = .rows found ∧
          reply.body = .array items ∧ items.length = found.length ∧
          sent'.getLast? = some (.countOf (r.afterAll calls).apply.plan) ∧
          db sent' = .rows counted ∧ ShowsCount counted total ∧
          (found.length = min limit (total - (r.afterAll calls).apply.plan.offset.getD 0) →
            (found.length = 0 ∧
              reply.headers.get? "content-range" = some (emptyRange r.entity.table total)) ∨
            ∃ last, last + 1 = (r.afterAll calls).apply.plan.offset.getD 0 + found.length ∧
              last < total ∧ found.length ≠ 0 ∧
              reply.headers.get? "content-range" = some (rangeUpTo r.entity.table
                ((r.afterAll calls).apply.plan.offset.getD 0) last total))) ∧
    ∀ (name : String) (offset returned total : Nat), total < wordBound →
      ∃ text, (contentRangeHeaders offset returned total name).get? "content-range" = some text ∧
        Printable text ∧
        ((returned = 0 ∧ text = emptyRange name total) ∨
          ∃ last, returned ≠ 0 ∧ text = rangeUpTo name offset last total ∧ last < wordBound ∧
            (last : Int) = min (offset + ((returned : Int) - 1)) (max 0 ((total : Int) - 1))) := by
  constructor
  · intro handler entityName ps r hparse htotal hmode hflat calls db before reply sent' h
    have hparsed := parsed_of_parse hparse
    obtain ⟨size, offset, -, hpage⟩ := PageClause.accept_iff_asks.mp (hparsed.read.page rfl)
    have hlimit : r.clauses.page.limit = some size := by rw [hpage]
    have happlied := hparsed.apply_afterAll calls
    obtain ⟨found, counted, total, items, hfound, hbody, hlength, hlast, hcounted, hread, hrange⟩ :=
      range_of_respond (happlied ▸ hparsed.multiple_eq) (happlied ▸ htotal) (happlied ▸ hmode)
        (happlied ▸ hflat) h
    have htable : (r.afterAll calls).apply.entity.table = r.entity.table := by rw [happlied]; rfl
    refine ⟨size, found, counted, total, items, ?_, hfound, hbody, hlength, hlast, hcounted, hread,
      fun hfull => ?_⟩
    · rw [happlied]
      exact Clauses.apply_limit hlimit r.base
    rw [htable] at hrange
    by_cases hnone : found.length = 0
    · rw [hnone, contentRange_zero] at hrange
      exact .inl ⟨hnone, hrange⟩
    · obtain ⟨last, htext, -, hvalue⟩ :=
        exists_contentRange_eq hnone hread.lt_wordBound r.entity.table
      obtain ⟨hnext, hwithin⟩ := last_of_full hnone hfull hvalue
      rw [htext] at hrange
      exact .inr ⟨last, hnext, hwithin, hnone, hrange⟩
  · intro name offset returned total htotal
    rw [contentRangeHeaders_eq]
    refine ⟨_, if_pos rfl, printable_contentRange offset returned total name, ?_⟩
    by_cases hnone : returned = 0
    · exact .inl ⟨hnone, hnone ▸ contentRange_zero offset total name⟩
    · obtain ⟨last, htext, hlast, hvalue⟩ := exists_contentRange_eq hnone htotal name
      exact .inr ⟨last, hnone, htext, hlast, hvalue⟩

/-! ### The second and the third of three posts -/

/-- Three posts, of which two are behind the first. -/
def threePosts : Database := fun sent =>
  match sent.getLast? with
  | some (.count _) => .rows [[(countAlias, .ofNat 3)]]
  | _ => .rows [[("id", .ofNat 2)], [("id", .ofNat 3)]]

theorem range_describes_page_of_threePosts :
    (∃ r reply sent', (postsHandler .permissive).parse "posts" none
        (.ofPairs [("config", "meta-total-count"), ("limit", "5"), ("offset", "1")]) = .ok r ∧
      r.options = ⟨false, false, true, false⟩ ∧
      Yields (r.respond threePosts) [] reply sent' ∧
      reply.headers.get? "content-range" = some "posts 1-2/3") ∧
    ∃ text, (contentRangeHeaders (wordBound - 1) (wordBound - 1) 0 "p\nö").get? "content-range" =
      some text ∧ Printable text := by
  constructor
  · have hread : ((postsHandler .permissive).parse "posts" none
        (.ofPairs [("config", "meta-total-count"), ("limit", "5"), ("offset", "1")])).toOption.map
        (fun r => (r.options, r.apply.plan.limit, r.apply.plan.offset, r.entity.table,
          ((r.respond threePosts).run.run []).run.1.toOption.isSome)) =
        some (⟨false, false, true, false⟩, some 5, some 1, "posts", true) := by decide +kernel
    obtain ⟨r, hparse, hr⟩ := exists_ok_of_map_toOption hread
    simp only [Prod.mk.injEq] at hr
    obtain ⟨hoptions, hlimit, hoffset, htable, hanswered⟩ := hr
    obtain ⟨reply, sent', hyields⟩ := exists_yields hanswered
    obtain ⟨size, found, counted, total, items, hsize, hfound, -, -, hlast, hcounted, hcount,
      hrange⟩ := range_describes_page.1 hparse (by rw [hoptions]) (by rw [hoptions])
        (by rw [hoptions]) [] threePosts [] reply sent' hyields
    obtain rfl := Answer.rows.inj hfound
    obtain rfl : 5 = size := Option.some.inj (hlimit.symm.trans hsize)
    have hthree : threePosts sent' = .rows [[(countAlias, .ofNat 3)]] := by
      have hcountOf : sent'.getLast? = some (.count _) := hlast
      rw [threePosts, hcountOf]
    obtain rfl := Answer.rows.inj (hthree.symm.trans hcounted)
    obtain rfl : 3 = total := Except.ok.inj (Database.countOfRows_eq_ok_iff.mpr hcount)
    have hafter : r.afterAll [] = r := rfl
    rw [hafter, hoffset, htable] at hrange
    rcases hrange rfl with ⟨hnone, -⟩ | ⟨last, hnext, -, -, htext⟩
    · cases hnone
    · obtain rfl : last = 2 := Nat.succ.inj hnext
      exact ⟨r, reply, sent', hparse, hoptions, hyields, htext⟩
  · obtain ⟨text, htext, hprintable, -⟩ := range_describes_page.2 "p\nö" (wordBound - 1)
      (wordBound - 1) 0 (by decide)
    exact ⟨text, htext, hprintable⟩

end Request

end RestQuery
