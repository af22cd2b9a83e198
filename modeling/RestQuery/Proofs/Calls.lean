import RestQuery.Proofs.AllowList
import RestQuery.Proofs.Load.Sent

/-!
# Calls on a request

Between its parsing and the end of its use a request takes calls in any order: it is restricted to a
scope, its clauses are applied, it is executed. The clauses reach the plan with the first call that
is no scope, and never again. So a scope stands before the predicates of the clauses or behind them,
and nothing else depends on when it came. It restricts the base plan and the plan alike, of which
every select of root rows and every count is made.
-/

namespace RestQuery

open Sql

/-- The statement keeps no rows of its table but those that satisfy a predicate. -/
def Sql.Statement.RestrictedTo (statement : Statement) (p : Predicate) : Prop :=
  match statement with
  | .select s => (p.condition s.table).asMember ∈ s.conditions
  | .count s => (p.condition s.table).asMember ∈ s.conditions

theorem Predicate.asMember_mem_conditions {table : String} {p : Predicate} {ps : List Predicate}
    (h : p ∈ ps) : (p.condition table).asMember ∈ conditions table ps := by
  induction ps with
  | nil => cases h
  | cons first rest ih =>
    rw [conditions]
    rcases List.mem_cons.mp h with rfl | h
    · exact List.mem_cons_self
    · exact List.mem_cons_of_mem _ (ih h)

theorem Sql.restrictedTo_ofPlan {plan : Plan} {p : Predicate} (h : p ∈ plan.predicates) :
    (Statement.ofPlan plan).RestrictedTo p := Predicate.asMember_mem_conditions h

theorem Sql.restrictedTo_countOf {plan : Plan} {p : Predicate} (h : p ∈ plan.predicates) :
    (Statement.countOf plan).RestrictedTo p := Predicate.asMember_mem_conditions h

def Plan.forFirst (plan : Plan) : Plan := { plan with limit := some 1, offset := none }

namespace Request

/-! ### Calls -/

inductive Call where
  | scope (p : Predicate)
  | apply
  | get
  | first
  | respond

namespace Call

def applies : Call → Bool
  | scope _ => false
  | _ => true

def scope? : Call → Option Predicate
  | scope p => some p
  | _ => none

/-- The statements that were sent when the call ends, after some that were sent before. -/
def sent (db : Database) (r : Request) (before : List Statement) : Call → List Statement
  | scope _ => before
  | apply => before
  | get => ((r.get db).run.run before).run.2
  | first => ((r.first db).run.run before).run.2
  | respond => ((r.respond db).run.run before).run.2

end Call

def scopesOf (calls : List Call) : List Predicate := calls.filterMap Call.scope?

@[simp] theorem scopesOf_cons_scope (p : Predicate) (calls : List Call) :
    scopesOf (.scope p :: calls) = p :: scopesOf calls := rfl

theorem scopesOf_cons_of_applies {call : Call} (h : call.applies = true) (calls : List Call) :
    scopesOf (call :: calls) = scopesOf calls := by
  cases call with
  | scope p => cases h
  | _ => rfl

/-- The request after a call. Whether its statements succeed makes no difference. -/
def after (r : Request) : Call → Request
  | .scope p => r.scope p
  | _ => r.apply

def afterAll (r : Request) (calls : List Call) : Request := calls.foldl after r

theorem after_of_applies (r : Request) {call : Call} (h : call.applies = true) :
    r.after call = r.apply := by
  cases call with
  | scope p => cases h
  | _ => rfl

/-! ### The states of a request -/

/-- The request with some scopes, before its clauses are applied. -/
def pending (r : Request) (scopes : List Predicate) : Request :=
  { r with
    base := r.base.withPredicates (r.base.predicates ++ scopes)
    plan := r.base.withPredicates (r.base.predicates ++ scopes)
    applied := false }

/-- The request whose clauses were applied after some scopes and before others. -/
def settled (r : Request) (early late : List Predicate) : Request :=
  { r with
    base := r.base.withPredicates (r.base.predicates ++ early ++ late)
    plan := (r.clauses.apply r.base).withPredicates
      (r.base.predicates ++ early ++ r.clauses.predicates ++ late)
    applied := true }

@[simp] theorem pending_scope (r : Request) (scopes : List Predicate) (p : Predicate) :
    (r.pending scopes).scope p = r.pending (scopes ++ [p]) := by
  simp [pending, scope, Plan.addPredicate, Plan.withPredicates]

@[simp] theorem settled_scope (r : Request) (early late : List Predicate) (p : Predicate) :
    (r.settled early late).scope p = r.settled early (late ++ [p]) := by
  simp [settled, scope, Plan.addPredicate, Plan.withPredicates]

theorem pending_apply (r : Request) (scopes : List Predicate) :
    (r.pending scopes).apply = r.settled scopes [] := by
  have hplan := r.clauses.apply_withPredicates r.base (r.base.predicates ++ scopes)
  simp only [apply, pending, settled, hplan, List.append_nil]
  rfl

@[simp] theorem settled_apply (r : Request) (early late : List Predicate) :
    (r.settled early late).apply = r.settled early late := rfl

theorem afterAll_settled (r : Request) (early late : List Predicate) (calls : List Call) :
    (r.settled early late).afterAll calls = r.settled early (late ++ scopesOf calls) := by
  induction calls generalizing late with
  | nil => simp [afterAll, scopesOf]
  | cons call calls ih =>
    change ((r.settled early late).after call).afterAll calls = _
    cases hcall : call.applies with
    | true =>
      rw [after_of_applies _ hcall, settled_apply, ih, scopesOf_cons_of_applies hcall]
    | false =>
      cases call with
      | scope p =>
        rw [after, settled_scope, ih, scopesOf_cons_scope, List.append_assoc]
        rfl
      | _ => cases hcall

/-- The scopes before the first call that applies the clauses. -/
def earlyScopes (calls : List Call) : List Predicate :=
  scopesOf (calls.takeWhile fun call => !call.applies)

def lateScopes (calls : List Call) : List Predicate :=
  scopesOf (calls.dropWhile fun call => !call.applies)

theorem earlyScopes_append_lateScopes (calls : List Call) :
    earlyScopes calls ++ lateScopes calls = scopesOf calls := by
  rw [earlyScopes, lateScopes, scopesOf, scopesOf, ← List.filterMap_append,
    List.takeWhile_append_dropWhile]
  rfl

theorem earlyScopes_of_none {calls : List Call} (h : calls.any Call.applies = false) :
    earlyScopes calls = scopesOf calls ∧ lateScopes calls = [] := by
  have hall : ∀ call ∈ calls, (!call.applies) = true := by simpa using h
  constructor
  · rw [earlyScopes, List.takeWhile_eq_self_iff.mpr hall]
  · rw [lateScopes, List.dropWhile_eq_nil_iff.mpr hall, scopesOf, List.filterMap_nil]

theorem afterAll_pending (r : Request) (scopes : List Predicate) (calls : List Call) :
    (r.pending scopes).afterAll calls =
      if calls.any Call.applies then r.settled (scopes ++ earlyScopes calls) (lateScopes calls)
      else r.pending (scopes ++ scopesOf calls) := by
  induction calls generalizing scopes with
  | nil => simp [afterAll, scopesOf]
  | cons call calls ih =>
    change ((r.pending scopes).after call).afterAll calls = _
    cases hcall : call.applies with
    | true =>
      have hearly : earlyScopes (call :: calls) = [] := by simp [earlyScopes, hcall, scopesOf]
      have hlate : lateScopes (call :: calls) = scopesOf calls := by
        rw [lateScopes, List.dropWhile_cons_of_neg (by simp [hcall])]
        exact scopesOf_cons_of_applies hcall calls
      rw [after_of_applies _ hcall, pending_apply, afterAll_settled, hearly, hlate]
      simp [hcall]
    | false =>
      cases call with
      | scope p =>
        rw [after, pending_scope, ih]
        simp [hcall, earlyScopes, lateScopes]
      | _ => cases hcall

/-! ### What a call sends -/

theorem apply_eq (r : Request) : r.apply = { r with plan := r.apply.plan, applied := true } := by
  unfold apply
  split
  · next h =>
    obtain ⟨handler, entity, params, clauses, options, base, plan, applied, multiple⟩ := r
    obtain rfl : applied = true := h
    rfl
  · rfl

@[simp] theorem apply_apply (r : Request) : r.apply.apply = r.apply := by
  have happlied : r.apply.applied = true := by rw [apply_eq]
  exact if_pos happlied

/-- The selects of root rows that a call executes when the clauses are applied. -/
def rootSelects (r : Request) : Call → List Statement
  | .scope _ => []
  | .apply => []
  | .get => [.ofPlan r.plan]
  | .first => [.ofPlan r.plan.forFirst]
  | .respond =>
    if r.options.countMode then []
    else if r.multiple then [.ofPlan r.plan]
    else [.ofPlan r.plan.forFirst]

/-- The statement asks for rows of a relation, with what the plan loads there. -/
def AsksRelated (r : Request) (statement : Statement) : Prop :=
  ∃ path, AsksAt r.handler.schema r.plan.loads r.entity path statement

/-- The statement is the total count or the count of the rows that match. -/
def Counts (r : Request) (statement : Statement) : Prop :=
  statement = .countOf r.base ∨ statement = .countOf r.plan

section Sends

variable {r : Request} (db : Database)

theorem sends_fetch (plan : Plan) (hloads : plan.loads = r.plan.loads) :
    Sends (fun statements => ∃ related, statements = .ofPlan plan :: related ∧
      ∀ statement ∈ related, r.AsksRelated statement) (r.fetch db plan) := by
  have hask : Sends (fun statements => statements = [.ofPlan plan]) (db.ask (.ofPlan plan)) :=
    sends_ask rfl
  have hload := Load.sendsOnly_run_asksAt db r.handler.schema plan.loads r.entity
  rw [hloads] at hload
  unfold fetch
  rw [hloads]
  refine hask.bind (fun rows => (hload rows).bind fun _ => sendsOnly_pure _) ?_ ?_
  · rintro statements rfl
    exact ⟨[], rfl, by simp⟩
  · rintro statements related rfl hrelated
    exact ⟨related, rfl, hrelated⟩

theorem sends_get (h : r.apply = r) :
    Sends (fun statements => ∃ related, statements = .ofPlan r.plan :: related ∧
      ∀ statement ∈ related, r.AsksRelated statement) (r.get db) := by
  unfold get
  rw [h]
  exact sends_fetch db r.plan rfl

theorem sends_first (h : r.apply = r) :
    Sends (fun statements => ∃ related, statements = .ofPlan r.plan.forFirst :: related ∧
      ∀ statement ∈ related, r.AsksRelated statement) (r.first db) := by
  unfold first
  rw [h]
  exact (sends_fetch db r.plan.forFirst rfl).andThen fun rows => sends_pure _ rfl

theorem sends_data (h : r.apply = r) :
    Sends (fun statements => ∃ related, statements = r.rootSelects .respond ++ related ∧
      ∀ statement ∈ related, r.AsksRelated statement) (r.data db) := by
  rw [rootSelects, data]
  split
  · exact sends_pure _ ⟨[], rfl, by simp⟩
  · split
    · exact (sends_get db h).andThen fun rows => sends_pure _ rfl
    · exact (sends_first db h).andThen fun row => sends_pure _ rfl

theorem sendsOnly_count (statement : Statement) :
    SendsOnly (fun sent => sent = statement) (db.count statement) := by
  have hask : SendsOnly (fun sent => sent = statement) (db.ask statement) := sendsOnly_ask rfl
  refine hask.bind fun rows => ?_
  split
  · exact sendsOnly_pure _
  · exact sends_throw _ (by simp)

/-- What each count has, and runs have that go on with such runs, all sources together have. -/
theorem evaluateAll_induction {P : ∀ {α : Type}, Run α → Prop}
    (hpure : ∀ {α : Type} (a : α), P (pure a : Run α))
    (hbind : ∀ {α β : Type} {x : Run α} {f : α → Run β}, P x → (∀ a, P (f a)) → P (x >>= f))
    {sources : List MetaSource}
    (hcount : ∀ title plan, .count title plan ∈ sources → P (db.count (.countOf plan))) :
    P (MetaSource.evaluateAll db sources) := by
  induction sources with
  | nil => exact hpure []
  | cons source rest ih =>
    have hsource : P (source.evaluate db) := by
      cases source with
      | count title plan =>
        exact hbind (hcount title plan List.mem_cons_self) fun _ => hpure _
      | query text => exact hpure _
    have hrest := ih fun title plan hmem => hcount title plan (List.mem_cons_of_mem _ hmem)
    exact hbind hsource fun _ => hbind hrest fun _ => hpure _

theorem sendsOnly_metaSources :
    SendsOnly r.Counts (MetaSource.evaluateAll db r.metaSources) := by
  refine evaluateAll_induction db sendsOnly_pure .bind fun title plan hmem =>
    (sendsOnly_count db _).imp fun statement hstatement => ?_
  subst hstatement
  have hplan : plan = r.base ∨ plan = r.plan := by
    simp only [metaSources, List.mem_append, List.mem_ite_nil_right, List.mem_singleton,
      MetaSource.count.injEq, reduceCtorEq, and_false, or_false] at hmem
    rcases hmem with ⟨-, -, rfl⟩ | ⟨-, -, rfl⟩
    · exact .inl rfl
    · exact .inr rfl
  rcases hplan with rfl | rfl
  · exact .inl rfl
  · exact .inr rfl

theorem sendsOnly_rangeHeaders (entries : List (String × Json)) (returned : Nat) :
    SendsOnly r.Counts (r.rangeHeaders db entries returned) := by
  have hcount : SendsOnly r.Counts (r.filteredCount db entries) := by
    unfold filteredCount
    split
    · exact sendsOnly_pure _
    · exact (sendsOnly_count db _).imp fun statement h => .inr h
  unfold rangeHeaders
  split
  · exact hcount.bind fun _ => sendsOnly_pure _
  · exact sendsOnly_pure _

theorem sends_respond (h : r.apply = r) :
    Sends (fun statements => ∃ related counts,
      statements = r.rootSelects .respond ++ related ++ counts ∧
      (∀ statement ∈ related, r.AsksRelated statement) ∧ ∀ statement ∈ counts, r.Counts statement)
      (r.respond db) := by
  unfold respond
  rw [h]
  have hcounts : ∀ data : Json × Nat, SendsOnly r.Counts (do
      let entries ← MetaSource.evaluateAll db r.metaSources
      let range ← r.rangeHeaders db entries data.2
      return Reply.render r.options entries data.1 range) := fun data =>
    (sendsOnly_metaSources db).bind fun entries =>
      (sendsOnly_rangeHeaders db entries data.2).bind fun _ => sendsOnly_pure _
  refine (sends_data db h).bind hcounts ?_ ?_
  · rintro statements ⟨related, rfl, hrelated⟩
    exact ⟨related, [], by simp, hrelated, by simp⟩
  · rintro statements counts ⟨related, rfl, hrelated⟩ hall
    exact ⟨related, counts, rfl, hrelated, hall⟩

end Sends

theorem sends_call (r : Request) (db : Database) (before : List Statement) (call : Call) :
    ∃ related counts,
      call.sent db r before = before ++ r.apply.rootSelects call ++ related ++ counts ∧
      (∀ statement ∈ related, r.apply.AsksRelated statement) ∧
      ∀ statement ∈ counts, r.apply.Counts statement := by
  have happly := r.apply_apply
  cases call with
  | scope p => exact ⟨[], [], by simp [Call.sent, rootSelects], by simp, by simp⟩
  | apply => exact ⟨[], [], by simp [Call.sent, rootSelects], by simp, by simp⟩
  | get =>
    have hget : r.get db = r.apply.get db := by rw [get, get, happly]
    obtain ⟨_, hsent, related, rfl, hrelated⟩ := sends_get db happly before
    refine ⟨related, [], ?_, hrelated, by simp⟩
    rw [Call.sent, hget, hsent, rootSelects]
    simp
  | first =>
    have hfirst : r.first db = r.apply.first db := by rw [first, first, happly]
    obtain ⟨_, hsent, related, rfl, hrelated⟩ := sends_first db happly before
    refine ⟨related, [], ?_, hrelated, by simp⟩
    rw [Call.sent, hfirst, hsent, rootSelects]
    simp
  | respond =>
    have hrespond : r.respond db = r.apply.respond db := by rw [respond, respond, happly]
    obtain ⟨_, hsent, related, counts, rfl, hrelated, hcounts⟩ := sends_respond db happly before
    refine ⟨related, counts, ?_, hrelated, hcounts⟩
    rw [Call.sent, hrespond, hsent]
    simp only [List.append_assoc]

theorem restrictedTo_of_mem_rootSelects {r : Request} {call : Call} {statement : Statement}
    (h : statement ∈ r.rootSelects call) {p : Predicate} (hp : p ∈ r.plan.predicates) :
    statement.RestrictedTo p := by
  have hplan : statement = .ofPlan r.plan ∨ statement = .ofPlan r.plan.forFirst := by
    cases call with
    | respond =>
      rw [rootSelects] at h
      split at h
      · cases h
      · split at h
        · exact .inl (List.mem_singleton.mp h)
        · exact .inr (List.mem_singleton.mp h)
    | get => exact .inl (List.mem_singleton.mp h)
    | first => exact .inr (List.mem_singleton.mp h)
    | _ => cases h
  rcases hplan with rfl | rfl
  · exact restrictedTo_ofPlan hp
  · exact restrictedTo_ofPlan hp

theorem Counts.restrictedTo {r : Request} {statement : Statement} (h : r.Counts statement)
    {p : Predicate} (hbase : p ∈ r.base.predicates) (hplan : p ∈ r.plan.predicates) :
    statement.RestrictedTo p := by
  rcases h with rfl | rfl
  · exact restrictedTo_countOf hbase
  · exact restrictedTo_countOf hplan

/-! ### All calls on an accepted request -/

section

variable {handler : Handler} {entityName : String} {id : Option String} {ps : Parameters}
  {r : Request} (h : r.Parsed handler entityName id ps)

include h

theorem Parsed.pending_nil : r.pending [] = r := by
  obtain ⟨-, -, -, -, -, -, -, hplan, happlied, -⟩ := h
  obtain ⟨handler, entity, params, clauses, options, base, plan, applied, multiple⟩ := r
  obtain rfl : plan = base := hplan
  obtain rfl : applied = false := happlied
  simp [pending, Plan.withPredicates]

theorem Parsed.afterAll_eq (calls : List Call) :
    r.afterAll calls =
      if calls.any Call.applies then r.settled (earlyScopes calls) (lateScopes calls)
      else r.pending (scopesOf calls) := by
  have hpending := r.afterAll_pending [] calls
  rwa [h.pending_nil, List.nil_append, List.nil_append] at hpending

theorem Parsed.apply_afterAll (calls : List Call) :
    (r.afterAll calls).apply = r.settled (earlyScopes calls) (lateScopes calls) := by
  rw [h.afterAll_eq]
  split
  · rfl
  · next hnone =>
    obtain ⟨hearly, hlate⟩ := earlyScopes_of_none (by simpa using hnone)
    rw [pending_apply, hearly, hlate]

theorem Parsed.base_predicates :
    r.base.predicates = (id.map fun id => .compare r.entity.primaryKey .eq id).toList := by
  rw [h.base_eq]
  cases id <;> rfl

end

structure Keeps (r : Request) (calls : List Call) (r' : Request) : Prop where
  base : r'.base = { r.base with predicates := r.base.predicates ++ scopesOf calls }
  applied : r'.applied = calls.any Call.applies
  /-- Without a call that applies the clauses, nothing of them is in the plan. -/
  unapplied : r'.applied = false → r'.plan = r'.base
  /-- With one, the plan is the one that the clauses make of the first base plan, except for its
  predicates. -/
  plan : r'.applied = true →
    r'.plan = { r.clauses.apply r.base with predicates := r'.plan.predicates }
  predicates : r'.applied = true → r'.plan.predicates =
    r.base.predicates ++ earlyScopes calls ++ r.clauses.predicates ++ lateScopes calls
  perm : r'.plan.predicates.Perm
    (r'.base.predicates ++ if r'.applied then r.clauses.predicates else [])
  rest : r' = { r with base := r'.base, plan := r'.plan, applied := r'.applied }

theorem keeps_settled (r : Request) {calls : List Call} (happlies : calls.any Call.applies = true) :
    r.Keeps calls (r.settled (earlyScopes calls) (lateScopes calls)) where
  base := by
    simp only [settled, Plan.withPredicates, List.append_assoc, earlyScopes_append_lateScopes]
  applied := happlies.symm
  unapplied := nofun
  plan _ := rfl
  predicates _ := rfl
  perm := by
    simp only [settled, Plan.withPredicates, if_true, List.append_assoc]
    exact (List.perm_append_comm.append_left _).append_left _
  rest := rfl

theorem keeps_pending (r : Request) {calls : List Call} (hnone : calls.any Call.applies = false) :
    r.Keeps calls (r.pending (scopesOf calls)) where
  base := rfl
  applied := hnone.symm
  unapplied _ := rfl
  plan := nofun
  predicates := nofun
  perm := by simp [pending]
  rest := rfl

/-- Whatever calls a request took, its base plan has the scopes in their order behind what it began
with, and its plan has them too, beside what the clauses put there once. So every select of root
rows and every count that a further call sends is restricted to each of the scopes. -/
theorem scopes_kept {handler : Handler} {entityName : String} {id : Option String}
    {ps : Parameters} {r : Request} (h : handler.parse entityName id ps = .ok r)
    (calls : List Call) :
    r.base = Handler.basePlan r.entity id ∧
    r.base.predicates = (id.map fun id => .compare r.entity.primaryKey .eq id).toList ∧
    r.Keeps calls (r.afterAll calls) ∧
    ∀ call db before, ∃ related counts,
      call.sent db (r.afterAll calls) before =
        before ++ (r.afterAll calls).apply.rootSelects call ++ related ++ counts ∧
      (∀ statement ∈ related, (r.afterAll calls).apply.AsksRelated statement) ∧
      (∀ statement ∈ counts, (r.afterAll calls).apply.Counts statement) ∧
      ∀ p ∈ scopesOf calls, ∀ statement ∈ (r.afterAll calls).apply.rootSelects call ++ counts,
        statement.RestrictedTo p := by
  have hparsed := parsed_of_parse h
  refine ⟨hparsed.base_eq, hparsed.base_predicates, ?_, fun call db before => ?_⟩
  · rw [hparsed.afterAll_eq]
    split
    · next happlies => exact r.keeps_settled happlies
    · next hnone => exact r.keeps_pending (by simpa using hnone)
  · obtain ⟨related, counts, hsent, hrelated, hcounts⟩ :=
      (r.afterAll calls).sends_call db before call
    refine ⟨related, counts, hsent, hrelated, hcounts, fun p hp statement hstatement => ?_⟩
    rw [← earlyScopes_append_lateScopes, List.mem_append] at hp
    have hbase : p ∈ (r.afterAll calls).apply.base.predicates := by
      rw [hparsed.apply_afterAll]
      simp only [settled, Plan.withPredicates, List.mem_append]
      tauto
    have hplan : p ∈ (r.afterAll calls).apply.plan.predicates := by
      rw [hparsed.apply_afterAll]
      simp only [settled, Plan.withPredicates, List.mem_append]
      tauto
    rcases List.mem_append.mp hstatement with hroot | hcount
    · exact restrictedTo_of_mem_rootSelects hroot hplan
    · exact (hcounts statement hcount).restrictedTo hbase hplan

/-- Posts of a tenant are got, and after that also the deleted ones are left out. -/
def tenantCalls : List Call :=
  [.scope (.compare "tenant_id" .eq "7"), .get, .scope (.isNull "deleted_at" false)]

theorem scopes_kept_of_tenantCalls :
    ∃ r, (postsHandler .permissive).parse "posts" none (.ofPairs [("filter[title]", "x")]) = .ok r ∧
      (r.afterAll tenantCalls).plan.predicates =
        [.compare "tenant_id" .eq "7", .compare "title" .eq "x", .isNull "deleted_at" false] ∧
      ∀ db before, ∃ select related counts,
        Call.sent db (r.afterAll tenantCalls) before .respond =
          before ++ [select] ++ related ++ counts ∧
        select.RestrictedTo (.compare "tenant_id" .eq "7") ∧
        select.RestrictedTo (.isNull "deleted_at" false) := by
  have hread : ((postsHandler .permissive).parse "posts" none
      (.ofPairs [("filter[title]", "x")])).toOption.map (fun r =>
        (r.base.predicates, r.clauses.predicates, r.options.countMode, r.multiple)) =
      some ([], [.compare "title" .eq "x"], false, true) := by cbv
  obtain ⟨r, hparse, hr⟩ := exists_ok_of_map_toOption hread
  simp only [Prod.mk.injEq] at hr
  obtain ⟨hbase, hclauses, hmode, hmultiple⟩ := hr
  obtain ⟨-, -, hkeeps, hsends⟩ := scopes_kept hparse tenantCalls
  refine ⟨r, hparse, ?_, fun db before => ?_⟩
  · rw [hkeeps.predicates hkeeps.applied, hbase, hclauses]
    rfl
  · obtain ⟨related, counts, hsent, -, -, hrestricted⟩ := hsends .respond db before
    have hmode' : (r.afterAll tenantCalls).apply.options.countMode = false := by
      rw [apply_eq, hkeeps.rest]
      exact hmode
    have hmultiple' : (r.afterAll tenantCalls).apply.multiple = true := by
      rw [apply_eq, hkeeps.rest]
      exact hmultiple
    have hroot : (r.afterAll tenantCalls).apply.rootSelects .respond =
        [.ofPlan (r.afterAll tenantCalls).apply.plan] := by
      simp only [rootSelects, hmode', hmultiple', Bool.false_eq_true, if_false, if_true]
    rw [hroot] at hsent hrestricted
    refine ⟨_, related, counts, hsent, ?_, ?_⟩
    · exact hrestricted _ List.mem_cons_self _ List.mem_cons_self
    · exact hrestricted _ (List.mem_cons_of_mem _ List.mem_cons_self) _ List.mem_cons_self

end Request

end RestQuery
