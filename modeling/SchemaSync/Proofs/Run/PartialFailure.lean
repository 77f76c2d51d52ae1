import SchemaSync.Proofs.Firebird.Ledger
import SchemaSync.Run.Reconcile

/-! What a plan leaves behind when it is applied through a driver that may refuse anything. What is
committed is a prefix of all statements, and the failure says where it ends. -/

namespace SchemaSync

open Firebird

def Step.statements (step : Step) : List String :=
  Script.splitStatements step.sql

/-- How a run of steps ends when some steps were done before. Either all statements are committed, or
a step has failed: those of the steps before it are committed, and of its own some, and at most one
more has been rolled back. -/
inductive Applied (executed : Nat) (steps : List Step) (calls : List Call) : Except Error Nat → Prop where
  | all (full : ∀ step ∈ steps, step.statements ≠ [])
      (settles : Settles calls (steps.flatMap Step.statements) []) :
      Applied executed steps calls (.ok (executed + steps.length))
  | stopped (failure : StepFailure) (before rest : List Step) (ran left : List String) (n : Nat)
      (place : steps = before ++ failure.step :: rest)
      (count : failure.executed = executed + before.length)
      (full : ∀ step ∈ before, step.statements ≠ [])
      (batch : failure.step.statements = ran ++ left)
      (cut : left = [] → failure.step.statements = []) (single : n ≤ 1)
      (settles : Settles calls (before.flatMap Step.statements ++ ran) (left.take n)) :
      Applied executed steps calls (.error (.step failure))

theorem Applied.cons {executed : Nat} {step : Step} {rest : List Step} {first more : List Call}
    {result : Except Error Nat} (full : step.statements ≠ [])
    (settles : Settles first step.statements [])
    (applied : Applied (executed + 1) rest more result) :
    Applied executed (step :: rest) (first ++ more) result := by
  cases applied with
  | all others settled =>
    rw [Nat.add_right_comm]
    refine .all (fun other member => ?_) (settles.append settled)
    rcases List.mem_cons.mp member with rfl | member
    · exact full
    · exact others other member
  | stopped failure before after ran left n place count others batch cut single settled =>
    refine .stopped failure (step :: before) after ran left n (by rw [place]; rfl) ?_ ?_ batch cut
      single (by simpa using settles.append settled)
    · rw [count, List.length_cons]
      omega
    · intro other member
      rcases List.mem_cons.mp member with rfl | member
      · exact full
      · exact others other member

namespace Firebird

variable {ε α : Type}

theorem Ends.within {ε' : Type} {entries : ε → List ε'} {action : Action ε (List Call) α}
    {world : World ε' (List Call)} {result : Except Error α} {calls : List Call}
    (ends : Ends action ⟨world.files, world.remote, []⟩ result calls) :
    Ends (Action.within entries action) world result calls :=
  ⟨ends.result, ends.calls⟩

theorem Ends.emit (event : Event) (world : World Entry (List Call)) :
    Ends (Action.emit event) world (.ok ()) [] :=
  ⟨rfl, (List.append_nil _).symm⟩

namespace Server

variable (server : Server)

theorem executor_ends (target batch : String) (world : World Entry (List Call)) :
    ∃ result calls ran left n,
      Ends (Action.logged (server.executor target batch)) world result calls ∧
      Script.splitStatements batch = ran ++ left ∧ n ≤ 1 ∧ Settles calls ran (left.take n) ∧
      (result = .ok () ↔ left = [] ∧ Script.splitStatements batch ≠ []) := by
  obtain ⟨result, calls, ran, left, n, ends, same, single, settles, finished⟩ :=
    server.execute_ends target batch ⟨world.files, world.remote, []⟩
  cases result with
  | ok affected =>
    have passed : Ends (server.executor target batch) _ (.ok ()) (calls ++ []) :=
      ends.bind (.pure () _)
    rw [List.append_nil] at passed
    exact ⟨.ok (), calls, ran, left, n, passed.within, same, single, settles, by simpa using finished⟩
  | error error =>
    exact ⟨.error error, calls, ran, left, n, (ends.bind_error _).within, same, single, settles,
      by simpa using finished⟩

/-- A run of steps commits all statements, or it stops at a step. -/
theorem stepsFrom_applied (target : String) (all done steps : List Step)
    (world : World Entry (List Call)) :
    ∃ result calls, Ends (Apply.stepsFrom server.executor target all done steps) world result calls ∧
      Applied done.length steps calls result := by
  induction steps generalizing done world with
  | nil => exact ⟨_, [], .pure _ _, .all (by simp) .nil⟩
  | cons step rest ih =>
    obtain ⟨result, calls, ran, left, n, ends, batch, single, settles, finished⟩ :=
      server.executor_ends target step.sql world
    rw [Apply.stepsFrom]
    cases result with
    | error cause =>
      refine ⟨_, _, ends.attempt.bind ((Ends.emit _ _).bind (.ofExcept _ _)), ?_⟩
      rw [List.append_nil, List.append_nil]
      refine .stopped (Apply.failure all done step cause) [] rest ran left n rfl rfl (by simp) batch
        (fun complete => Decidable.byContradiction fun full => ?_) single settles
      cases finished.mpr ⟨complete, full⟩
    | ok _ =>
      obtain ⟨complete, full⟩ := finished.mp rfl
      rw [complete, List.append_nil] at batch
      rw [complete, List.take_nil, ← batch] at settles
      obtain ⟨result, more, others, applied⟩ := ih (done ++ [step]) _
      rw [List.length_append] at applied
      exact ⟨result, _, ends.attempt.bind ((Ends.emit _ _).bind others), .cons full settles applied⟩

end Server

end Firebird

/-- What steps leave behind when they are run: committed is a prefix of all their statements. The run
returns just when all statements are committed and no step is empty. A failure names the step at which
the prefix ends and counts the steps before it, and of the statements that are left in the step, at
most the first was executed and rolled back. -/
structure CommitsPrefix {α : Type} (steps : List Step) (calls : List Call) (result : Except Error α) :
    Prop where
  settled : (Ledger.of calls).pending = [] ∧ (Ledger.of calls).lost = []
  committed : (Ledger.of calls).committed <+: steps.flatMap Step.statements
  reached : reached calls = (Ledger.of calls).committed ++ (Ledger.of calls).rolledBack
  returns : (∃ value, result = .ok value) ↔ (∀ step ∈ steps, step.statements ≠ []) ∧
    (Ledger.of calls).committed = steps.flatMap Step.statements
  clean : (∃ value, result = .ok value) → (Ledger.of calls).rolledBack = []
  fails : ∀ error, result = .error error → ∃ failure before rest ran left,
    error = .step failure ∧ steps = before ++ failure.step :: rest ∧
    failure.executed = before.length ∧ failure.step.statements = ran ++ left ∧
    (left = [] → failure.step.statements = []) ∧
    (Ledger.of calls).committed = before.flatMap Step.statements ++ ran ∧
    (Ledger.of calls).rolledBack <+: left.take 1

theorem Applied.commitsPrefix {steps : List Step} {calls : List Call} {result : Except Error Nat}
    (applied : Applied 0 steps calls result) : CommitsPrefix steps calls result := by
  cases applied with
  | all full settles =>
    have ledger := settles.of_eq
    exact {
      settled := by rw [ledger]; exact ⟨rfl, rfl⟩
      committed := ledger ▸ List.prefix_rfl
      reached := by rw [ledger, settles.reached]
      returns := by rw [ledger]; exact ⟨fun _ => ⟨full, rfl⟩, fun _ => ⟨_, rfl⟩⟩
      clean := fun _ => by rw [ledger]
      fails := fun error failed => by cases failed }
  | stopped failure before rest ran left n place count full batch cut single settles =>
    have ledger := settles.of_eq
    have whole : steps.flatMap Step.statements =
        before.flatMap Step.statements ++ ran ++ (left ++ rest.flatMap Step.statements) := by
      simp [place, batch]
    exact {
      settled := by rw [ledger]; exact ⟨rfl, rfl⟩
      committed := by rw [ledger, whole]; exact List.prefix_append _ _
      reached := by rw [ledger, settles.reached]
      clean := by rintro ⟨value, returned⟩; cases returned
      returns := by
        rw [ledger, whole]
        constructor
        · rintro ⟨value, returned⟩
          cases returned
        · -- Nothing is left in the failed step, so it is empty, and no step is.
          rintro ⟨everyStep, same⟩
          rw [List.self_eq_append_right, List.append_eq_nil_iff] at same
          exact absurd (cut same.1) (everyStep failure.step (by simp [place]))
      fails := by
        rintro _ ⟨rfl⟩
        rw [ledger]
        exact ⟨failure, before, rest, ran, left, rfl, place, by simpa using count, batch, cut, rfl,
          List.take_prefix_take_left single⟩ }

theorem CommitsPrefix.map {α β : Type} {steps : List Step} {calls : List Call}
    {result : Except Error α} (commits : CommitsPrefix steps calls result) (f : α → β) :
    CommitsPrefix steps calls (result.map f) := by
  have returned : (∃ value, result.map f = .ok value) ↔ ∃ value, result = .ok value := by
    cases result <;> simp [Except.map]
  refine { commits with returns := returned.trans commits.returns, clean := ?_, fails := ?_ }
  · exact fun value => commits.clean (returned.mp value)
  · intro error failed
    cases result with
    | ok value => cases failed
    | error error => exact commits.fails _ (congrArg _ (Except.error.inj failed))

/-- Applying a plan that is not empty is a run of its steps. -/
theorem Firebird.Server.apply_ends (server : Server) (plan : Plan) (world : World Entry (List Call))
    (nonempty : plan.changes.steps ≠ []) : ∃ outcome calls,
      Ends (Reconcile.apply server.executor plan) world (outcome.map fun executed => .ofPlan plan executed false)
        calls ∧ Applied 0 plan.changes.steps calls outcome := by
  obtain ⟨outcome, calls, ends, applied⟩ :=
    server.stepsFrom_applied plan.target plan.changes.steps [] plan.changes.steps
      ((Action.announce .stage ("Applying " ++ toString plan.changes.total ++ " change(s)")).perform
        world).2
  have started : plan.changes.total ≠ 0 := fun none => nonempty (List.length_eq_zero_iff.mp none)
  rw [Reconcile.apply, if_neg started]
  refine ⟨outcome, calls, ?_, applied⟩
  cases outcome with
  | error error => exact (Ends.emit _ _).bind (ends.bind_error _)
  | ok executed =>
    refine Ends.congr
      (Ends.bind (Ends.emit _ _) (Ends.bind ends (Ends.bind (Ends.emit _ _) (Ends.pure _ _)))) ?_
    rw [List.nil_append, List.append_nil, List.append_nil]

/-- However a driver behaves, applying a plan commits a prefix of its statements, in order, and the
failure tells which. -/
theorem apply_commits_prefix (server : Server) (plan : Plan) (world : World Entry (List Call))
    (nonempty : plan.changes.steps ≠ []) :
    ∃ result calls, Ends (Reconcile.apply server.executor plan) world result calls ∧
      CommitsPrefix plan.changes.steps calls result := by
  obtain ⟨outcome, calls, ends, applied⟩ := server.apply_ends plan world nonempty
  exact ⟨_, calls, ends, applied.commitsPrefix.map _⟩

/-- A server whose driver refuses every statement. -/
def refusingServer : Server where
  connection := { user := "SYSDBA", password := "masterkey" }
  driver := {
    connect := fun _ _ => .ok ()
    create := fun _ _ => .ok ()
    fetch := fun _ _ => .ok []
    execute := fun _ _ => .error "refused" }

def refusingServerFor (refused : String) : Server where
  connection := refusingServer.connection
  driver := { refusingServer.driver with
    execute := fun _ statement => if statement = refused then .error "refused" else .ok none }

def contactPlan : Plan where
  target := "main.fdb"
  existing := .empty
  desired := .empty
  changes := {
    domainCreates := [
      { category := "domain", action := "create", objectName := "EMAIL", sql := "CREATE DOMAIN EMAIL AS INTEGER;" }]
    domainAlters := []
    tableCreates := [
      { category := "table", action := "create", objectName := "CONTACT"
        sql := "CREATE TABLE CONTACT (MAIL EMAIL); CREATE INDEX BY_MAIL ON CONTACT (MAIL);" }]
    columnAdds := []
    columnAlters := []
    procedures := [
      { category := "procedure", action := "create or alter", objectName := "TOUCH"
        sql := "CREATE OR ALTER PROCEDURE TOUCH AS BEGIN END" }] }
  warnings := []

/-- The plan stops within its second step, after two statements have been committed. -/
theorem contactPlan_commits_prefix : ∃ result calls,
    Ends (Reconcile.apply (refusingServerFor "CREATE INDEX BY_MAIL ON CONTACT (MAIL)").executor contactPlan)
      ⟨.empty [], [], []⟩ result calls ∧
    CommitsPrefix contactPlan.changes.steps calls result ∧
    (Ledger.of calls).committed = ["CREATE DOMAIN EMAIL AS INTEGER", "CREATE TABLE CONTACT (MAIL EMAIL)"] ∧
    (Ledger.of calls).rolledBack = ["CREATE INDEX BY_MAIL ON CONTACT (MAIL)"] := by
  obtain ⟨result, calls, ends, commits⟩ := apply_commits_prefix
    (refusingServerFor "CREATE INDEX BY_MAIL ON CONTACT (MAIL)") contactPlan ⟨.empty [], [], []⟩ (List.cons_ne_nil _ _)
  refine ⟨result, calls, ends, commits, ?_⟩
  have made := ends.calls
  rw [List.nil_append] at made
  rw [← made]
  decide +kernel

end SchemaSync
