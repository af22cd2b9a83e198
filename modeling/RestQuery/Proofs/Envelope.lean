import RestQuery.Proofs.AgreeOn
import RestQuery.Proofs.Headers
import RestQuery.Proofs.Load.Steady
import RestQuery.Proofs.Reply

/-!
# Flat replies and envelopes

Whether metadata stand in the body is a matter of rendering: no clause reads this setting, and data
and metadata are asked for in the same way with it and without. Only the range is asked for in flat
replies alone, and last. So against a database that answers each statement by itself both kinds of
reply carry the same data and the same entries; the entries stand under names that differ, and each
of them can be sent in a header.
-/

namespace RestQuery

open Sql

/-! ### Requests that differ in their envelope -/

def ReplyOptions.withEnvelope (options : ReplyOptions) (envelope : Bool) : ReplyOptions :=
  { options with envelope := envelope }

def Settings.withEnvelope (settings : Settings) (envelope : Bool) : Settings :=
  { settings with envelope := envelope }

def Context.withEnvelope (ctx : Context) (envelope : Bool) : Context :=
  { ctx with settings := ctx.settings.withEnvelope envelope }

def Handler.withEnvelope (handler : Handler) (envelope : Bool) : Handler :=
  { handler with settings := handler.settings.withEnvelope envelope }

def Request.withEnvelope (r : Request) (envelope : Bool) : Request :=
  { r with
    handler := r.handler.withEnvelope envelope
    options := r.options.withEnvelope envelope }

/-- The options of a request say nothing of the envelope. -/
def Settings.LeavesEnvelope (settings : Settings) (ps : Parameters) : Prop :=
  ∀ value, ps.get? (settings.param "config") = some value →
    ∀ option ∈ Text.listed value, option ≠ "response-envelope" ∧ option ≠ "response-default"

section

variable (ctx : Context) (envelope : Bool)

theorem ExpandClause.walk_withEnvelope (item : ExpandItem) (entity : Entity)
    (above polymorphic : Option String) (e : Expansion) (segments : List String) :
    walk (ctx.withEnvelope envelope) item entity above polymorphic e segments =
      walk ctx item entity above polymorphic e segments := by
  induction segments generalizing entity above polymorphic e with
  | nil => rfl
  | cons segment rest ih =>
    simp only [walk, ih]
    rfl

theorem ExpandClause.read_withEnvelope (ps : Parameters) (clause : ExpandClause) :
    read (ctx.withEnvelope envelope) ps clause = read ctx ps clause := by
  have htake : take (ctx.withEnvelope envelope) = take ctx := by
    funext e item
    unfold take
    rw [walk_withEnvelope]
    rfl
  unfold read
  rw [htake]
  rfl

theorem Clauses.read_withEnvelope (ps : Parameters) (multiple : Bool) :
    read (ctx.withEnvelope envelope) ps multiple = read ctx ps multiple := by
  unfold read
  rw [ExpandClause.read_withEnvelope]
  rfl

variable {ctx}

theorem ReplyOptions.set_withEnvelope {option : String}
    (h : option ≠ "response-envelope" ∧ option ≠ "response-default") (options : ReplyOptions) :
    set (options.withEnvelope envelope) option =
      (set options option).map (·.withEnvelope envelope) := by
  unfold set
  rw [if_neg h.1, if_neg h.2, if_neg h.1, if_neg h.2]
  repeat' split
  all_goals rfl

theorem ReplyOptions.foldlM_set_withEnvelope {listed : List String}
    (h : ∀ option ∈ listed, option ≠ "response-envelope" ∧ option ≠ "response-default")
    (options : ReplyOptions) :
    listed.foldlM set (options.withEnvelope envelope) =
      (listed.foldlM set options).map (·.withEnvelope envelope) := by
  induction listed generalizing options with
  | nil => rfl
  | cons option listed ih =>
    obtain ⟨hoption, hlisted⟩ := List.forall_mem_cons.mp h
    rw [List.foldlM_cons, List.foldlM_cons, set_withEnvelope envelope hoption]
    cases set options option with
    | error failure => rfl
    | ok next => exact ih hlisted next

theorem Handler.optionsOf_withEnvelope {ps : Parameters} (h : ctx.settings.LeavesEnvelope ps) :
    optionsOf (ctx.withEnvelope envelope) ps =
      (optionsOf ctx ps).map (·.withEnvelope envelope) := by
  have hparam : (ctx.withEnvelope envelope).param? ps ["config"] = ctx.param? ps ["config"] := rfl
  unfold optionsOf
  rw [hparam]
  cases hvalue : ctx.param? ps ["config"] with
  | none => rfl
  | some value =>
    rw [Context.param?_singleton] at hvalue
    exact ReplyOptions.foldlM_set_withEnvelope envelope (h value hvalue) (.ofSettings ctx.settings)

/-- The setting changes an accepted request in nothing but itself. -/
theorem Handler.parse_withEnvelope {handler : Handler} {ps : Parameters}
    (h : handler.settings.LeavesEnvelope ps) (entityName : String) (id : Option String) :
    (handler.withEnvelope envelope).parse entityName id ps =
      (handler.parse entityName id ps).map (·.withEnvelope envelope) := by
  have hschema : (handler.withEnvelope envelope).schema = handler.schema := rfl
  unfold parse
  rw [hschema]
  cases handler.schema.entity? entityName with
  | none => rfl
  | some entity =>
    have hcontext : (handler.withEnvelope envelope).contextFor entity =
        (handler.contextFor entity).withEnvelope envelope := rfl
    have hleaves : (handler.contextFor entity).settings.LeavesEnvelope ps := h
    simp only [hcontext, Clauses.read_withEnvelope, optionsOf_withEnvelope envelope hleaves]
    cases Clauses.read (handler.contextFor entity) ps id.isNone with
    | error failure => rfl
    | ok clauses =>
      cases optionsOf (handler.contextFor entity) ps with
      | error failure => rfl
      | ok options =>
        simp only [bind, Except.bind, Except.map]
        cases clauses.check <;> rfl

end

namespace Request

variable (r : Request) (envelope : Bool)

theorem apply_withEnvelope : (r.withEnvelope envelope).apply = r.apply.withEnvelope envelope := by
  have happlied : (r.withEnvelope envelope).applied = r.applied := rfl
  unfold apply
  rw [happlied]
  split <;> rfl

theorem afterAll_withEnvelope (calls : List Call) :
    (r.withEnvelope envelope).afterAll calls = (r.afterAll calls).withEnvelope envelope := by
  induction calls generalizing r with
  | nil => rfl
  | cons call calls ih =>
    have hafter : (r.withEnvelope envelope).after call = (r.after call).withEnvelope envelope := by
      cases call with
      | scope p => rfl
      | _ => exact r.apply_withEnvelope envelope
    change ((r.withEnvelope envelope).after call).afterAll calls = _
    rw [hafter, ih]
    rfl

theorem data_withEnvelope (db : Database) : (r.withEnvelope envelope).data db = r.data db := by
  unfold data get first
  rw [apply_withEnvelope]
  rfl

theorem metaSources_withEnvelope : (r.withEnvelope envelope).metaSources = r.metaSources := rfl

/-! ### Metadata of a request -/

/-- A source is one of three kinds, each of which a request has once at most. -/
theorem titles_sublist :
    (r.metaSources.map MetaSource.title).Sublist
      [totalCountTitle, filterCountTitle, queryTitle] := by
  have hone : ∀ (b : Bool) (source : MetaSource),
      ((if b then [source] else []).map MetaSource.title).Sublist [source.title] := by
    intro b source
    cases b with
    | false => exact List.nil_sublist _
    | true => exact List.Sublist.refl _
  unfold metaSources
  rw [List.map_append, List.map_append]
  exact ((hone _ _).append (hone _ _)).append (hone _ _)

end Request

/-! ### Runs that do not depend on the past -/

section

variable {answer : Statement → Answer}

namespace MetaSource

/-- The entry has the title of the source. Its value is what the answer to the statement of a count
shows, or the text of a query. -/
def Reads (answer : Statement → Answer) (source : MetaSource) (entry : String × Json) : Prop :=
  entry.1 = source.title ∧
    match source with
    | count _ plan =>
      ∃ rows n, answer (.countOf plan) = .rows rows ∧ ShowsCount rows n ∧ entry.2 = .ofNat n
    | query text => entry.2 = .text text

theorem steady_evaluateAll (sources : List MetaSource) :
    Steady (evaluateAll (.answering answer) sources) :=
  Request.evaluateAll_induction _ steady_pure .bind fun _ _ _ => steady_count _

theorem reads_of_evaluate {source : MetaSource} {value : Json} {sent sent' : List Statement}
    (h : Yields (source.evaluate (.answering answer)) sent value sent') :
    source.Reads answer (source.title, value) := by
  refine ⟨rfl, ?_⟩
  cases source with
  | count title plan =>
    obtain ⟨n, hcount, hvalue⟩ := yields_evaluate_count.mp h
    obtain ⟨rfl, rows, hrows, hshows⟩ := yields_count.mp hcount
    rw [Database.answering_append] at hrows
    exact ⟨rows, n, hrows, hshows, hvalue⟩
  | query text => exact (yields_pure.mp h).1.symm

/-- There is one entry for each source, in their order. -/
theorem reads_of_evaluateAll {sources : List MetaSource} {sent sent' : List Statement}
    {entries : List (String × Json)}
    (h : Yields (evaluateAll (.answering answer) sources) sent entries sent') :
    List.Forall₂ (Reads answer) sources entries := by
  induction sources generalizing sent entries with
  | nil =>
    obtain ⟨rfl, -⟩ := yields_pure.mp h
    exact .nil
  | cons source rest ih =>
    obtain ⟨value, middle, values, hvalue, hvalues, rfl⟩ := yields_evaluateAll_cons.mp h
    exact .cons (reads_of_evaluate hvalue) (ih hvalues)

theorem titles_eq {sources : List MetaSource} {entries : List (String × Json)}
    (h : List.Forall₂ (Reads answer) sources entries) :
    entries.map Prod.fst = sources.map title := by
  induction h with
  | nil => rfl
  | cons hentry _ ih => rw [List.map_cons, List.map_cons, hentry.1, ih]

end MetaSource

namespace Request

/-- Every entry can be sent in a header. -/
theorem sent_of_reads {r : Request} {source : MetaSource} (hsource : source ∈ r.metaSources)
    {entry : String × Json} (h : source.Reads answer entry) :
    headerName entry.1 = some (smallName entry.1) ∧
      headerValue entry.2 = some (headerText entry.2) := by
  have hnames : ∀ title ∈ [totalCountTitle, filterCountTitle, queryTitle],
      headerName title = some (smallName title) := by decide
  obtain ⟨htitle, hvalue⟩ := h
  constructor
  · rw [htitle]
    exact hnames _ (r.titles_sublist.subset (List.mem_map_of_mem hsource))
  · cases source with
    | count title plan =>
      obtain ⟨-, n, -, -, hn⟩ := hvalue
      rw [hn]
      refine headerValue_of_printable ?_
      rw [headerText_ofNat]
      exact printable_toString n
    | query text =>
      have htext : r.clauses.page.pageDriven = true ∧
          text = r.params.toQuery [r.handler.settings.param "page"] := by
        simpa [metaSources] using hsource
      have hquery : entry.2 = .text text := hvalue
      rw [hquery, htext.2]
      exact headerValue_of_printable (printable_encode _)

theorem steady_data (r : Request) : Steady (r.data (.answering answer)) := by
  have hfetch : ∀ plan, Steady (r.apply.fetch (.answering answer) plan) := fun plan =>
    (steady_ask _).bind fun rows => (Load.steady_run _ _ _).bind fun rows => steady_pure _
  unfold data
  split
  · exact steady_pure _
  · split
    · exact (hfetch _).bind fun rows => steady_pure _
    · exact ((hfetch _).bind fun rows => steady_pure _).bind fun row => steady_pure _

end Request

end

/-! ### The two renderings -/

section

variable {options : ReplyOptions} (h : options.countMode = false)
  (entries : List (String × Json)) (data : Json) (more : Headers)

include h

theorem Reply.render_flat :
    render (options.withEnvelope false) entries data more =
      ⟨(metaHeaders entries).extend more, data⟩ := by
  have hmode : (options.withEnvelope false).countMode = false := h
  have hflat : (options.withEnvelope false).envelope = false := rfl
  simp only [render, hmode, hflat, Bool.false_eq_true, if_false]

theorem Reply.render_enveloped :
    render (options.withEnvelope true) entries data more =
      ⟨[], .object [("data", data), ("meta", metaObject metaKey entries)]⟩ := by
  have hmode : (options.withEnvelope true).countMode = false := h
  have henveloped : (options.withEnvelope true).envelope = true := rfl
  simp only [render, hmode, henveloped, Bool.false_eq_true, if_false, if_true]
  rfl

end

theorem Request.keys_of_rangeHeaders {r : Request} {db : Database} {sent sent' : List Statement}
    {entries : List (String × Json)} {returned : Nat} {range : Headers}
    (h : Yields (r.rangeHeaders db entries returned) sent range sent') :
    (Dict.keys range).Sublist ["content-range"] := by
  unfold rangeHeaders at h
  split at h
  · obtain ⟨total, middle, -, h⟩ := yields_bind.mp h
    obtain ⟨rfl, -⟩ := yields_pure.mp h
    unfold contentRangeHeaders
    split
    · exact List.Sublist.refl _
    · exact List.nil_sublist _
  · obtain ⟨rfl, -⟩ := yields_pure.mp h
    exact List.nil_sublist _

section

variable {entries : List (String × Json)}
  (htitles : (entries.map Prod.fst).Sublist [totalCountTitle, filterCountTitle, queryTitle])

include htitles

/-- A flat reply has one header for each entry, besides the range. -/
theorem perm_extend_metaHeaders
    (hsent : ∀ entry ∈ entries, headerName entry.1 = some (smallName entry.1) ∧
      headerValue entry.2 = some (headerText entry.2))
    {range : Headers} (hrange : (Dict.keys range).Sublist ["content-range"]) :
    ((metaHeaders entries).extend range).Perm (entries.map headerOf ++ range) ∧
      (Dict.keys ((metaHeaders entries).extend range)).Nodup := by
  have hall : ([totalCountTitle, filterCountTitle, queryTitle].map smallName ++
      ["content-range"]).Nodup := by decide
  have hmap : (entries.map headerOf).map Prod.fst = (entries.map Prod.fst).map smallName := by
    rw [List.map_map, List.map_map]
    rfl
  have hnames : ((entries.map headerOf).map Prod.fst ++ Dict.keys range).Nodup := by
    rw [hmap]
    exact hall.sublist ((htitles.map smallName).append hrange)
  have hmeta : (metaHeaders entries).Perm (entries.map headerOf) := by
    refine perm_metaHeaders hsent ?_
    have hfirst := (List.nodup_append.mp hnames).1
    rwa [List.map_map] at hfirst
  have hkeys : (Dict.keys (metaHeaders entries) ++ Dict.keys range).Nodup :=
    ((hmeta.map Prod.fst).append_right _).nodup_iff.mpr hnames
  have hperm : ((metaHeaders entries).extend range).Perm (metaHeaders entries ++ range) :=
    Dict.perm_foldl_insert hkeys
  have hwhole := hperm.trans (hmeta.append_right range)
  refine ⟨hwhole, (hwhole.map Prod.fst).nodup_iff.mpr ?_⟩
  rwa [List.map_append]

/-- An envelope has one entry for each entry. -/
theorem perm_metaObject :
    ∃ fields, metaObject metaKey entries = .object fields ∧
      fields.Perm (entries.map fun entry => (metaKey entry.1, entry.2)) ∧
      (Dict.keys fields).Nodup := by
  have hall : ([totalCountTitle, filterCountTitle, queryTitle].map metaKey).Nodup := by decide
  have hkeys : ((entries.map fun entry => (metaKey entry.1, entry.2)).map Prod.fst).Nodup := by
    have hmap : (entries.map fun entry => (metaKey entry.1, entry.2)).map Prod.fst =
        (entries.map Prod.fst).map metaKey := by
      rw [List.map_map, List.map_map]
      rfl
    rw [hmap]
    exact hall.sublist (htitles.map metaKey)
  exact ⟨_, rfl, Dict.perm_ofList hkeys, (Dict.ordered_ofList _).nodup_keys⟩

end

namespace Request

/-- The two renderings of a request carry the same data and the same entries. -/
theorem renderings_agree {r : Request} (hmode : r.apply.options.countMode = false)
    {answer : Statement → Answer} {before before' sent sent' : List Statement}
    {reply reply' : Reply}
    (hreply : Yields ((r.withEnvelope false).respond (.answering answer)) before reply sent)
    (hreply' : Yields ((r.withEnvelope true).respond (.answering answer)) before' reply' sent') :
    ∃ entries range fields,
      List.Forall₂ (MetaSource.Reads answer) r.apply.metaSources entries ∧
      reply'.body = .object [("data", reply.body), ("meta", .object fields)] ∧
      reply.headers.Perm (entries.map headerOf ++ range) ∧
      (Dict.keys range).Sublist ["content-range"] ∧ (Dict.keys reply.headers).Nodup ∧
      fields.Perm (entries.map fun entry => (metaKey entry.1, entry.2)) ∧
      (Dict.keys fields).Nodup ∧ reply'.headers = [] := by
  obtain ⟨data, returned, entries, range, s₁, s₂, hdata, hmeta, hrange, rfl⟩ :=
    yields_respond.mp hreply
  obtain ⟨data', returned', entries', range', s₁', s₂', hdata', hmeta', -, rfl⟩ :=
    yields_respond.mp hreply'
  rw [apply_withEnvelope, data_withEnvelope] at hdata hdata'
  rw [apply_withEnvelope, metaSources_withEnvelope] at hmeta hmeta'
  rw [apply_withEnvelope, apply_withEnvelope]
  -- both renderings are of the same runs
  obtain ⟨rfl, -⟩ := Prod.mk.inj (r.apply.steady_data.yields_eq hdata hdata')
  obtain rfl := (MetaSource.steady_evaluateAll _).yields_eq hmeta hmeta'
  have hreads := MetaSource.reads_of_evaluateAll hmeta
  have htitles : (entries.map Prod.fst).Sublist
      [totalCountTitle, filterCountTitle, queryTitle] :=
    MetaSource.titles_eq hreads ▸ r.apply.titles_sublist
  have hsent : ∀ entry ∈ entries, headerName entry.1 = some (smallName entry.1) ∧
      headerValue entry.2 = some (headerText entry.2) := by
    intro entry hentry
    obtain ⟨source, hsource, hentry⟩ := exists_of_forall₂_of_mem hreads hentry
    exact sent_of_reads hsource hentry
  obtain ⟨fields, hobject, hfields, hkeys⟩ := perm_metaObject htitles
  obtain ⟨hheaders, hnodup⟩ := perm_extend_metaHeaders htitles hsent (keys_of_rangeHeaders hrange)
  have hflat : Reply.render (r.apply.withEnvelope false).options entries data range =
      ⟨(metaHeaders entries).extend range, data⟩ :=
    Reply.render_flat hmode entries data range
  have henveloped : Reply.render (r.apply.withEnvelope true).options entries data range' =
      ⟨[], .object [("data", data), ("meta", .object fields)]⟩ :=
    hobject ▸ Reply.render_enveloped hmode entries data range'
  rw [hflat, henveloped]
  exact ⟨entries, range, fields, hreads, rfl, hheaders,
    keys_of_rangeHeaders hrange, hnodup, hfields, hkeys, rfl⟩

/-- Whatever a request asks for that leaves the envelope and the mode open, its flat reply and its
envelope carry the same data. Each source of metadata has one header in the flat reply and one field
in the envelope, under the names that are made from its title and with its value; none is left out.
The flat reply has no other header but that of the range, and the envelope has none at all. -/
theorem envelope_carries_flat_reply {handler : Handler} {entityName : String} {id : Option String}
    {ps : Parameters} {flat enveloped : Request} (hleaves : handler.settings.LeavesEnvelope ps)
    (hflat : (handler.withEnvelope false).parse entityName id ps = .ok flat)
    (henveloped : (handler.withEnvelope true).parse entityName id ps = .ok enveloped)
    (hmode : flat.options.countMode = false) (calls : List Call)
    {answer : Statement → Answer} {before before' sent sent' : List Statement}
    {reply reply' : Reply}
    (hreply : Yields ((flat.afterAll calls).respond (.answering answer)) before reply sent)
    (hreply' : Yields ((enveloped.afterAll calls).respond (.answering answer)) before' reply'
      sent') :
    ∃ entries range fields,
      (enveloped.afterAll calls).apply.metaSources = (flat.afterAll calls).apply.metaSources ∧
      List.Forall₂ (MetaSource.Reads answer) (flat.afterAll calls).apply.metaSources
        entries ∧
      reply'.body = .object [("data", reply.body), ("meta", .object fields)] ∧
      reply.headers.Perm (entries.map headerOf ++ range) ∧
      (Dict.keys range).Sublist ["content-range"] ∧ (Dict.keys reply.headers).Nodup ∧
      fields.Perm (entries.map fun entry => (metaKey entry.1, entry.2)) ∧
      (Dict.keys fields).Nodup ∧ reply'.headers = [] := by
  rw [Handler.parse_withEnvelope false hleaves] at hflat
  rw [Handler.parse_withEnvelope true hleaves] at henveloped
  cases hparse : handler.parse entityName id ps with
  | error failure =>
    rw [hparse] at hflat
    cases hflat
  | ok r =>
    rw [hparse] at hflat henveloped
    obtain rfl := Except.ok.inj hflat
    obtain rfl := Except.ok.inj henveloped
    have happlied : (r.afterAll calls).apply.options = r.options := by
      rw [(parsed_of_parse hparse).apply_afterAll]
      rfl
    rw [afterAll_withEnvelope] at hreply hreply' ⊢
    obtain ⟨entries, range, fields, hreads, hagree⟩ :=
      renderings_agree (happlied ▸ hmode) hreply hreply'
    rw [afterAll_withEnvelope, apply_withEnvelope, apply_withEnvelope]
    exact ⟨entries, range, fields, rfl, hreads, hagree⟩

/-! ### Posts page by page -/

/-- Posts, of which there are three. -/
def countedPosts : Statement → Answer
  | .count _ => .rows [[(countAlias, .ofNat 3)]]
  | .select _ => .rows [[("id", .ofNat 2)]]

def pagedPosts : Parameters :=
  .ofPairs [("config", "meta-total-count"), ("page", "2"), ("pageSize", "1")]

theorem envelope_carries_flat_reply_of_pagedPosts :
    (postsHandler .permissive).settings.LeavesEnvelope pagedPosts ∧
    ∃ flat enveloped reply reply' sent sent' fields,
      ((postsHandler .permissive).withEnvelope false).parse "posts" none pagedPosts = .ok flat ∧
      ((postsHandler .permissive).withEnvelope true).parse "posts" none pagedPosts =
        .ok enveloped ∧
      flat.options.countMode = false ∧
      Yields (flat.respond (.answering countedPosts)) [] reply sent ∧
      Yields (enveloped.respond (.answering countedPosts)) [] reply' sent' ∧
      reply'.body = .object [("data", reply.body), ("meta", .object fields)] ∧
      (Dict.keys fields).Perm ["total_count", "query"] ∧ reply'.headers = [] := by
  have hleaves : (postsHandler .permissive).settings.LeavesEnvelope pagedPosts := by
    have hconfig : pagedPosts.get? ((postsHandler .permissive).settings.param "config") =
        some "meta-total-count" := by decide
    intro value hvalue
    obtain rfl := Option.some.inj (hconfig.symm.trans hvalue)
    decide
  have hread : ∀ envelope, (((postsHandler .permissive).withEnvelope envelope).parse "posts" none
      pagedPosts).toOption.map (fun r => (r.options.countMode,
        r.apply.metaSources.map MetaSource.title,
        ((r.respond (.answering countedPosts)).run.run []).run.1.toOption.isSome)) =
      some (false, [totalCountTitle, queryTitle], true) := by decide +kernel
  obtain ⟨flat, hflat, hr⟩ := exists_ok_of_map_toOption (hread false)
  obtain ⟨enveloped, henveloped, hr'⟩ := exists_ok_of_map_toOption (hread true)
  simp only [Prod.mk.injEq] at hr hr'
  obtain ⟨hmode, htitles, hanswered⟩ := hr
  obtain ⟨reply, sent, hreply⟩ := exists_yields hanswered
  obtain ⟨reply', sent', hreply'⟩ := exists_yields hr'.2.2
  obtain ⟨entries, range, fields, -, hreads, hbody, -, -, -, hfields, -, hheaders⟩ :=
    envelope_carries_flat_reply hleaves hflat henveloped hmode [] hreply hreply'
  have hentries : entries.map Prod.fst = [totalCountTitle, queryTitle] :=
    (MetaSource.titles_eq hreads).trans htitles
  have hkeys : (entries.map fun entry => (metaKey entry.1, entry.2)).map Prod.fst =
      ["total_count", "query"] := by
    have hmap : (entries.map Prod.fst).map metaKey = ["total_count", "query"] := by
      rw [hentries]
      decide
    rwa [List.map_map] at hmap ⊢
  exact ⟨hleaves, flat, enveloped, reply, reply', sent, sent', fields, hflat, henveloped, hmode,
    hreply, hreply', hbody, hkeys ▸ hfields.map Prod.fst, hheaders⟩

end Request

end RestQuery
