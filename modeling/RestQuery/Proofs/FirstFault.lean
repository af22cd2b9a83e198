import RestQuery.Proofs.Calls
import RestQuery.Proofs.Load.Stops

/-!
# The first fault decides the reply

A request executes its statements one after another: the select of its rows, one for each relation
and level, the counts of its metadata and perhaps one more for the range. Whichever of them is the
first to go wrong, it is the last to be executed, and its failure is that of the whole request. If
all go well there is a reply, unless the schema cannot follow a path that is to be loaded.
-/

namespace RestQuery

open Sql LoadStep

variable {db : Database}

theorem MetaSource.stopsAtFault_evaluateAll {own : Failure → Prop} (sources : List MetaSource) :
    StopsAtFault db own (evaluateAll db sources) :=
  Request.evaluateAll_induction db stopsAtFault_pure .bind fun _ _ _ => stopsAtFault_count _

namespace Request

variable {r : Request}

/-- The failures of relations that the plan loads although the schema cannot follow them. -/
def LoadFails (r : Request) (failure : Failure) : Prop :=
  Load.StepFails (ofLoads r.handler.schema r.plan.loads r.entity) failure

theorem stopsAtFault_fetch (plan : Plan) (hloads : plan.loads = r.plan.loads) :
    StopsAtFault db r.LoadFails (r.fetch db plan) := by
  unfold fetch LoadFails
  rw [hloads]
  exact (stopsAtFault_select _).bind fun rows =>
    (Load.stopsAtFault_run _ _ _ rows).bind fun _ => stopsAtFault_pure _

theorem stopsAtFault_data (h : r.apply = r) : StopsAtFault db r.LoadFails (r.data db) := by
  have hget : StopsAtFault db r.LoadFails (r.get db) := by
    unfold get
    rw [h]
    exact stopsAtFault_fetch r.plan rfl
  have hfirst : StopsAtFault db r.LoadFails (r.first db) := by
    unfold first
    rw [h]
    exact (stopsAtFault_fetch r.plan.forFirst rfl).bind fun _ => stopsAtFault_pure _
  unfold data
  split
  · exact stopsAtFault_pure _
  · split
    · exact hget.bind fun _ => stopsAtFault_pure _
    · exact hfirst.bind fun _ => stopsAtFault_pure _

theorem stopsAtFault_rangeHeaders {own : Failure → Prop} (entries : List (String × Json))
    (returned : Nat) : StopsAtFault db own (r.rangeHeaders db entries returned) := by
  have hcount : StopsAtFault db own (r.filteredCount db entries) := by
    unfold filteredCount
    split
    · exact stopsAtFault_pure _
    · exact stopsAtFault_count _
  unfold rangeHeaders
  split
  · exact hcount.bind fun _ => stopsAtFault_pure _
  · exact stopsAtFault_pure _

theorem stopsAtFault_respond (r : Request) (db : Database) :
    StopsAtFault db r.apply.LoadFails (r.respond db) :=
  (stopsAtFault_data r.apply_apply).bind fun _ =>
    (MetaSource.stopsAtFault_evaluateAll _).bind fun _ =>
      (stopsAtFault_rangeHeaders _ _).bind fun _ => stopsAtFault_pure _

/-- If one of the statements that a request executes goes wrong, the request fails as this statement
did, and executes nothing after it. If none goes wrong there is a reply, unless the request fails at
a relation that the schema cannot follow. -/
theorem first_fault_decides (r : Request) (db : Database) (sent : List Statement) :
    ∃ (result : Except Failure Reply) (more : List Statement),
      ((r.respond db).run.run sent).run = (result, sent ++ more) ∧
      (∀ before statement after fault, more = before ++ statement :: after →
        (db (sent ++ before ++ [statement])).fault? statement = some fault →
          result = .error fault.onStatement ∧ after = []) ∧
      ((∀ before statement after, more = before ++ statement :: after →
          (db (sent ++ before ++ [statement])).fault? statement = none) →
        (∃ reply, result = .ok reply) ∨
          ∃ path failure, result = .error failure ∧ .fail path failure ∈
            allOf (ofLoads r.handler.schema r.apply.plan.loads r.entity)) := by
  obtain ⟨result, more, hrun, hstop⟩ := stopsAtFault_respond r db sent
  refine ⟨result, more, hrun, ?_, ?_⟩
  · exact fun before statement after fault hmore hfault => hstop.decided hmore hfault
  · intro hnone
    rcases hstop.of_noFault hnone with hreply | ⟨failure, rfl, path, hfail⟩
    · exact .inl hreply
    · rw [r.apply_eq] at hfail
      exact .inr ⟨path, failure, rfl, hfail⟩

/-! ### Posts whose total count is not answered -/

def answeringOnce : Database := fun sent =>
  if sent.length = 2 then .fault .unanswered else .rows []

/-- The posts were selected, and still there is no reply. -/
theorem first_fault_decides_of_answeringOnce :
    ∃ r, (postsHandler .permissive).parse "posts" none
        (.ofPairs [("config", "meta-total-count,meta-filter-count")]) = .ok r ∧
      ∃ statement count, ((r.respond answeringOnce).run.run []).run =
        (.error (.database .unanswered), [statement, count]) := by
  have hread : ((postsHandler .permissive).parse "posts" none
      (.ofPairs [("config", "meta-total-count,meta-filter-count")])).toOption.map (fun r =>
        ((r.respond answeringOnce).run.run []).run.2.length) = some 2 := by decide +kernel
  obtain ⟨r, hparse, hlength⟩ := exists_ok_of_map_toOption hread
  obtain ⟨result, more, hrun, hfault, -⟩ := first_fault_decides r answeringOnce []
  rw [hrun] at hlength
  obtain ⟨statement, count, rfl⟩ := List.length_eq_two.mp hlength
  obtain ⟨rfl, -⟩ := hfault [statement] count [] .unanswered rfl rfl
  exact ⟨r, hparse, statement, count, hrun⟩

end Request

end RestQuery
