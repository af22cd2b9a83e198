import RestQuery.Proofs.Load.Sent

/-!
# Runs that stop at a fault

A statement goes wrong if the database answers with a fault, or if a count was asked for and the
answer holds none that can be read. A run stops at the first statement that goes wrong: it executes
nothing after it and fails as this statement did. Only if none goes wrong it may return a value, or
fail for a reason of its own. A load has no reason but a step that fails.
-/

namespace RestQuery

open Sql LoadStep

/-- What went wrong with a statement that was answered so: the database reported a fault, or a count
was asked for and the first row shows no whole number below `2 ^ 63`. -/
def Answer.fault? : Statement → Answer → Option DatabaseFault
  | _, .fault reported => some reported
  | .select _, .rows _ => none
  | .count _, .rows [] => none
  | .count _, .rows (row :: _) =>
    match row.get? countAlias with
    | some (.number (.int n)) => if n < 9223372036854775808 then none else some .unreadableCount
    | _ => some .unreadableCount

section

variable {rows : List Row} (s : Select)

theorem Answer.fault?_count_of_ok {n : Nat} (h : Database.countOfRows rows = .ok n) :
    (Answer.rows rows).fault? (.count s) = none := by
  unfold Database.countOfRows at h
  split at h
  · rfl
  · split at h
    · next hvalue =>
      split at h
      · next hn =>
        simp only [fault?, hvalue]
        exact if_pos hn
      · cases h
    · cases h

theorem Answer.fault?_count_of_error {failure : Failure}
    (h : Database.countOfRows rows = .error failure) :
    (Answer.rows rows).fault? (.count s) = some .unreadableCount := by
  unfold Database.countOfRows at h
  split at h
  · cases h
  · split at h
    · next hvalue =>
      split at h
      · cases h
      · next hn =>
        simp only [fault?, hvalue]
        exact if_neg hn
    · simp only [fault?]

end

theorem Database.countOfRows_eq_error {rows : List Row} {failure : Failure}
    (h : countOfRows rows = .error failure) :
    failure = DatabaseFault.unreadableCount.onStatement := by
  have hkind : failure = .database .unreadableCount := by
    unfold countOfRows at h
    split at h
    · cases h
    · split at h
      · split at h
        · cases h
        · exact (Except.error.inj h).symm
      · exact (Except.error.inj h).symm
  rw [hkind]
  decide

/-- Nothing went wrong with the statements `more` that were executed after those of `sent`. -/
def NoFault (db : Database) (sent more : List Statement) : Prop :=
  ∀ before statement after, more = before ++ statement :: after →
    (db (sent ++ before ++ [statement])).fault? statement = none

theorem noFault_nil (db : Database) (sent : List Statement) : NoFault db sent [] := by
  intro before statement after h
  simp at h

theorem noFault_singleton {db : Database} {sent : List Statement} {statement : Statement}
    (h : (db (sent ++ [statement])).fault? statement = none) : NoFault db sent [statement] := by
  intro before other after hsplit
  rcases List.append_eq_cons_iff.mp hsplit.symm with ⟨rfl, hcons⟩ | ⟨rest, rfl, hrest⟩
  · obtain ⟨rfl, rfl⟩ := List.cons.inj hcons
    rwa [List.append_nil]
  · simp at hrest

theorem NoFault.append {db : Database} {sent first more : List Statement}
    (hfirst : NoFault db sent first) (hmore : NoFault db (sent ++ first) more) :
    NoFault db sent (first ++ more) := by
  intro before statement after hsplit
  rcases List.append_eq_append_iff.mp hsplit with ⟨middle, rfl, hmiddle⟩ | ⟨middle, hmiddle, hrest⟩
  · rw [← List.append_assoc]
    exact hmore middle statement after hmiddle
  · cases middle with
    | nil =>
      rw [List.append_nil] at hmiddle
      subst hmiddle
      have hnone := hmore [] statement after hrest.symm
      rwa [List.append_nil] at hnone
    | cons next middle =>
      obtain ⟨rfl, -⟩ := List.cons.inj hrest
      exact hfirst before statement middle hmiddle

/-- How a run ends that executes the statements `more` after those of `sent`. -/
inductive Stop {α : Type} (db : Database) (own : Failure → Prop) (sent : List Statement) :
    List Statement → Except Failure α → Prop
  | value {more : List Statement} (h : NoFault db sent more) (a : α) : Stop db own sent more (.ok a)
  | own {more : List Statement} (h : NoFault db sent more) {failure : Failure}
      (hown : own failure) : Stop db own sent more (.error failure)
  | fault {before : List Statement} (h : NoFault db sent before) {statement : Statement}
      {fault : DatabaseFault}
      (hfault : (db (sent ++ before ++ [statement])).fault? statement = some fault) :
      Stop db own sent (before ++ [statement]) (.error fault.onStatement)

/-- A run stops at the first statement that goes wrong. If it fails without one, its failure is one
of `own`. -/
def StopsAtFault {α : Type} (db : Database) (own : Failure → Prop) (x : Run α) : Prop :=
  ∀ sent, ∃ result more, (x.run.run sent).run = (result, sent ++ more) ∧
    Stop db own sent more result

section StopsAtFault

variable {α β : Type} {db : Database} {own own' : Failure → Prop} {x : Run α}

theorem Stop.imp {sent more : List Statement} {result : Except Failure α}
    (h : Stop db own sent more result) (himp : ∀ failure, own failure → own' failure) :
    Stop db own' sent more result := by
  cases h with
  | value h a => exact .value h a
  | own h hown => exact .own h (himp _ hown)
  | fault h hfault => exact .fault h hfault

/-- The statements that were executed before, with nothing wrong, make no difference. -/
theorem Stop.append {sent first more : List Statement} {result : Except Failure α}
    (hfirst : NoFault db sent first) (h : Stop db own (sent ++ first) more result) :
    Stop db own sent (first ++ more) result := by
  cases h with
  | value h a => exact .value (hfirst.append h) a
  | own h hown => exact .own (hfirst.append h) hown
  | fault h hfault =>
    rw [← List.append_assoc]
    refine .fault (hfirst.append h) ?_
    rwa [← List.append_assoc]

/-- The first statement that goes wrong is the last, and the run fails as it did. -/
theorem Stop.decided {sent more before after : List Statement} {result : Except Failure α}
    {statement : Statement} {fault : DatabaseFault} (h : Stop db own sent more result)
    (hmore : more = before ++ statement :: after)
    (hfault : (db (sent ++ before ++ [statement])).fault? statement = some fault) :
    result = .error fault.onStatement ∧ after = [] := by
  have hwrong : ∀ {more after}, more = before ++ statement :: after → ¬ NoFault db sent more :=
    fun hmore hnone => nomatch (hnone before statement _ hmore).symm.trans hfault
  cases h with
  | value hnone => exact absurd hnone (hwrong hmore)
  | own hnone => exact absurd hnone (hwrong hmore)
  | fault hnone hlast =>
    rcases List.eq_nil_or_concat after with rfl | ⟨rest, last, rfl⟩
    · obtain ⟨rfl, rfl⟩ := List.append_singleton_inj.mp hmore
      exact ⟨by rw [Option.some.inj (hlast.symm.trans hfault)], rfl⟩
    · -- the statement would stand before the last one, and nothing goes wrong there
      rw [List.concat_eq_append, ← List.cons_append, ← List.append_assoc] at hmore
      exact absurd hnone (hwrong (List.append_singleton_inj.mp hmore).1)

theorem Stop.of_noFault {sent more : List Statement} {result : Except Failure α}
    (h : Stop db own sent more result) (hnone : NoFault db sent more) :
    (∃ a, result = .ok a) ∨ ∃ failure, result = .error failure ∧ own failure := by
  cases h with
  | value _ a => exact .inl ⟨a, rfl⟩
  | own _ hown => exact .inr ⟨_, rfl, hown⟩
  | @fault before _ statement fault hfault =>
    cases (hnone before statement [] rfl).symm.trans hfault

theorem StopsAtFault.imp (h : StopsAtFault db own x)
    (himp : ∀ failure, own failure → own' failure) :
    StopsAtFault db own' x := by
  intro sent
  obtain ⟨result, more, hrun, hstop⟩ := h sent
  exact ⟨result, more, hrun, hstop.imp himp⟩

theorem stopsAtFault_pure (a : α) : StopsAtFault db own (pure a) :=
  fun sent => ⟨.ok a, [], by rw [List.append_nil]; rfl, .value (noFault_nil db sent) a⟩

theorem stopsAtFault_throw {failure : Failure} (h : own failure) :
    StopsAtFault db own (throw failure : Run α) :=
  fun sent => ⟨.error failure, [], by rw [List.append_nil]; rfl, .own (noFault_nil db sent) h⟩

theorem StopsAtFault.bind {f : α → Run β} (hx : StopsAtFault db own x)
    (hf : ∀ a, StopsAtFault db own (f a)) : StopsAtFault db own (x >>= f) := by
  intro sent
  obtain ⟨result, first, hrun, hstop⟩ := hx sent
  rw [run_bind, hrun]
  cases hstop with
  | value hfirst a =>
    obtain ⟨result, more, hrun, hstop⟩ := hf a (sent ++ first)
    exact ⟨result, first ++ more, by rw [← List.append_assoc]; exact hrun, hstop.append hfirst⟩
  | own hfirst hown => exact ⟨_, first, rfl, .own hfirst hown⟩
  | fault hbefore hfault => exact ⟨_, _, rfl, .fault hbefore hfault⟩

theorem stopsAtFault_foldlM {f : β → α → Run β} (hf : ∀ b a, StopsAtFault db own (f b a))
    (b : β) (as : List α) : StopsAtFault db own (as.foldlM f b) := by
  induction as generalizing b with
  | nil => exact stopsAtFault_pure b
  | cons a as ih =>
    rw [List.foldlM_cons]
    exact (hf b a).bind ih

theorem Stop.single {sent : List Statement} {statement : Statement} {fault : DatabaseFault}
    (hfault : (db (sent ++ [statement])).fault? statement = some fault) :
    Stop (α := α) db own sent [statement] (.error fault.onStatement) := by
  refine @Stop.fault α db own sent [] (noFault_nil db sent) statement fault ?_
  rwa [List.append_nil]

theorem stopsAtFault_select (s : Select) : StopsAtFault db own (db.ask (.select s)) := by
  intro sent
  refine ⟨_, [.select s], run_ask db (.select s) sent, ?_⟩
  cases hdb : db (sent ++ [.select s]) with
  | rows rows => exact .value (noFault_singleton (by rw [hdb]; rfl)) rows
  | fault fault => exact .single (by rw [hdb]; rfl)

theorem stopsAtFault_count (s : Select) : StopsAtFault db own (db.count (.count s)) := by
  intro sent
  unfold Database.count
  rw [run_bind, run_ask]
  cases hdb : db (sent ++ [.count s]) with
  | fault fault => exact ⟨_, [.count s], rfl, .single (by rw [hdb]; rfl)⟩
  | rows rows =>
    dsimp only
    cases hcount : Database.countOfRows rows with
    | ok n =>
      refine ⟨.ok n, [.count s], rfl, .value (noFault_singleton ?_) n⟩
      rw [hdb, Answer.fault?_count_of_ok s hcount]
    | error failure =>
      refine ⟨.error failure, [.count s], rfl, ?_⟩
      rw [Database.countOfRows_eq_error hcount]
      refine .single ?_
      rw [hdb, Answer.fault?_count_of_error s hcount]

end StopsAtFault

/-! ### Loads -/

namespace Load

variable {db : Database} {schema : Schema}

def StepFails (steps : List LoadStep) (failure : Failure) : Prop :=
  ∃ path, .fail path failure ∈ allOf steps

theorem stopsAtFault_loadOwners {own : Failure → Prop} (name typeColumn : String)
    (relation : Relation) (load : EagerLoad) (rows : List Row) :
    StopsAtFault db own (loadOwners db schema name typeColumn relation load rows) := by
  refine .bind (stopsAtFault_foldlM (fun typed typeValue => ?_) _ _) fun _ => stopsAtFault_pure _
  unfold loadOwnersOf
  split
  · exact stopsAtFault_pure _
  · dsimp only
    split
    · exact stopsAtFault_pure _
    · exact (stopsAtFault_select _).bind fun _ => stopsAtFault_pure _

theorem stopsAtFault_level {own : Failure → Prop} {load : List Row → Run (List Row)}
    (h : ∀ rows, StopsAtFault db own (load rows)) (entity : Entity) (rows : List Row) :
    StopsAtFault db own (level entity load rows) := by
  unfold level
  split
  · exact stopsAtFault_pure rows
  · exact (h rows).bind fun _ => stopsAtFault_pure _

mutual

/-- A step has no reason of its own to fail but that it, or a step below it, is one that fails. -/
theorem stopsAtFault_runStep : ∀ (step : LoadStep) (rows : List Row),
    StopsAtFault db (StepFails [step]) (runStep db schema step rows)
  | .fail path failure, rows => by
    rw [runStep]
    exact stopsAtFault_throw ⟨path, by simp [allOf, all]⟩
  | .owner path name typeColumn relation load, rows => by
    rw [runStep]
    exact stopsAtFault_loadOwners _ _ _ _ _
  | .related path name parentColumn relation target load steps, rows => by
    rw [runStep]
    split
    · exact stopsAtFault_pure _
    · refine (stopsAtFault_select _).bind fun children => ?_
      refine .bind (stopsAtFault_level (fun rows => ?_) target children) fun _ =>
        stopsAtFault_pure _
      refine (stopsAtFault_runSteps steps rows).imp fun failure ⟨path, hbelow⟩ => ⟨path, ?_⟩
      simpa [allOf, all] using hbelow

theorem stopsAtFault_runSteps : ∀ (steps : List LoadStep) (rows : List Row),
    StopsAtFault db (StepFails steps) (runSteps db schema steps rows)
  | [], rows => by
    rw [runSteps]
    exact stopsAtFault_pure rows
  | step :: rest, rows => by
    rw [runSteps]
    refine .bind ?_ fun rows => ?_
    · refine (stopsAtFault_runStep step rows).imp fun failure ⟨path, hown⟩ => ⟨path, ?_⟩
      simpa [allOf] using Or.inl hown
    · refine (stopsAtFault_runSteps rest rows).imp fun failure ⟨path, hlater⟩ => ⟨path, ?_⟩
      rw [allOf]
      exact List.mem_append_right _ hlater

end

theorem stopsAtFault_run (schema : Schema) (loads : Dict EagerLoad) (entity : Entity)
    (rows : List Row) :
    StopsAtFault db (StepFails (ofLoads schema loads entity))
      (Load.run db schema loads entity rows) :=
  stopsAtFault_level (stopsAtFault_runSteps _) entity rows

end Load

end RestQuery
