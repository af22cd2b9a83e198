import RestQuery.Proofs.Load.Run

/-!
# Runs that do not depend on the past

A database may answer each statement by itself, whatever was sent before. Then a run that asks it
returns the same and sends the same wherever it starts: what it sends next depends on the answers to
its own statements alone.
-/

namespace RestQuery

open Sql Load

/-- The database that answers each statement by itself. -/
def Database.answering (answer : Statement → Answer) : Database := fun sent =>
  match sent.getLast? with
  | some statement => answer statement
  | none => .fault .unanswered

theorem Database.answering_append (answer : Statement → Answer) (sent : List Statement)
    (statement : Statement) :
    answering answer (sent ++ [statement]) = answer statement := by
  unfold answering
  rw [List.getLast?_concat]

/-- What the run comes to, and what it sends, does not depend on what was sent before. -/
def Steady {α : Type} (x : Run α) : Prop :=
  ∃ result more, ∀ sent, (x.run.run sent).run = (result, sent ++ more)

section

variable {α β : Type} {x : Run α}

theorem steady_pure (a : α) : Steady (pure a : Run α) :=
  ⟨.ok a, [], fun sent => by rw [List.append_nil]; rfl⟩

theorem steady_throw (failure : Failure) : Steady (throw failure : Run α) :=
  ⟨.error failure, [], fun sent => by rw [List.append_nil]; rfl⟩

theorem Steady.bind {f : α → Run β} (hx : Steady x) (hf : ∀ a, Steady (f a)) :
    Steady (x >>= f) := by
  obtain ⟨result, first, hrun⟩ := hx
  cases result with
  | error failure => exact ⟨.error failure, first, fun sent => by rw [run_bind, hrun]⟩
  | ok a =>
    obtain ⟨result, more, hnext⟩ := hf a
    refine ⟨result, first ++ more, fun sent => ?_⟩
    rw [run_bind, hrun, ← List.append_assoc]
    exact hnext (sent ++ first)

theorem steady_foldlM {f : β → α → Run β} (hf : ∀ b a, Steady (f b a)) (b : β) (as : List α) :
    Steady (as.foldlM f b) := by
  induction as generalizing b with
  | nil => exact steady_pure b
  | cons a as ih =>
    rw [List.foldlM_cons]
    exact (hf b a).bind ih

/-- What a steady run returns somewhere, it returns everywhere. -/
theorem Steady.yields (hx : Steady x) {sent before : List Statement} {a : α}
    (h : Yields x before a sent) (start : List Statement) : ∃ finish, Yields x start a finish := by
  obtain ⟨result, more, hrun⟩ := hx
  obtain rfl : result = .ok a := (Prod.mk.inj ((hrun before).symm.trans h)).1
  exact ⟨start ++ more, hrun start⟩

theorem Steady.yields_eq (hx : Steady x) {sent sent' before before' : List Statement} {a b : α}
    (ha : Yields x before a sent) (hb : Yields x before' b sent') : a = b := by
  obtain ⟨finish, hfinish⟩ := hx.yields ha before'
  exact Except.ok.inj (Prod.mk.inj (hfinish.symm.trans hb)).1

variable {answer : Statement → Answer}

theorem steady_ask (statement : Statement) :
    Steady ((Database.answering answer).ask statement) := by
  cases hanswer : answer statement with
  | rows rows =>
    refine ⟨.ok rows, [statement], fun sent => ?_⟩
    simp only [run_ask, Database.answering_append, hanswer]
  | fault fault =>
    refine ⟨.error fault.onStatement, [statement], fun sent => ?_⟩
    simp only [run_ask, Database.answering_append, hanswer]

theorem steady_count (statement : Statement) :
    Steady ((Database.answering answer).count statement) := by
  refine (steady_ask statement).bind fun rows => ?_
  cases Database.countOfRows rows with
  | ok n => exact steady_pure n
  | error failure => exact steady_throw failure

end

/-! ### Loads -/

namespace Load

variable {answer : Statement → Answer} {schema : Schema}

theorem steady_loadOwners (name typeColumn : String) (relation : Relation) (load : EagerLoad)
    (rows : List Row) :
    Steady (loadOwners (.answering answer) schema name typeColumn relation load rows) := by
  refine .bind (steady_foldlM (fun typed typeValue => ?_) _ _) fun _ => steady_pure _
  unfold loadOwnersOf
  split
  · exact steady_pure _
  · dsimp only
    split
    · exact steady_pure _
    · exact (steady_ask _).bind fun _ => steady_pure _

theorem steady_level {load : List Row → Run (List Row)} (h : ∀ rows, Steady (load rows))
    (entity : Entity) (rows : List Row) : Steady (level entity load rows) := by
  unfold level
  split
  · exact steady_pure rows
  · exact (h rows).bind fun _ => steady_pure _

mutual

theorem steady_runStep : ∀ (step : LoadStep) (rows : List Row),
    Steady (runStep (.answering answer) schema step rows)
  | .fail path failure, rows => by
    rw [runStep]
    exact steady_throw failure
  | .owner path name typeColumn relation load, rows => by
    rw [runStep]
    exact steady_loadOwners ..
  | .related path name parentColumn relation target load steps, rows => by
    rw [runStep]
    split
    · exact steady_pure _
    · refine (steady_ask _).bind fun children => ?_
      exact (steady_level (steady_runSteps steps) target children).bind fun _ => steady_pure _

theorem steady_runSteps : ∀ (steps : List LoadStep) (rows : List Row),
    Steady (runSteps (.answering answer) schema steps rows)
  | [], rows => by
    rw [runSteps]
    exact steady_pure rows
  | step :: rest, rows => by
    rw [runSteps]
    exact (steady_runStep step rows).bind (steady_runSteps rest)

end

theorem steady_run (loads : Dict EagerLoad) (entity : Entity) (rows : List Row) :
    Steady (Load.run (.answering answer) schema loads entity rows) :=
  steady_level (steady_runSteps _) entity rows

end Load

end RestQuery
