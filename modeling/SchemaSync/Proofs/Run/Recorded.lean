import SchemaSync.Proofs.Run.Perform
import SchemaSync.Run.Apply

/-! An executor that keeps a record of what it is asked for. Runs do not notice: they end in the same way and leave
the same journal, files and database behind. -/

namespace SchemaSync

structure Execution where
  target : String
  batch : String
  result : Except Error Unit

variable {σ ρ α β : Type}

def Executor.recorded (execute : Executor σ) : Executor (σ × List Execution) :=
  fun target batch => Action.ofStep fun world =>
    let (result, after) := (execute target batch).perform ⟨world.files, world.remote.1, world.journal⟩
    (result, ⟨after.files, (after.remote, world.remote.2 ++ [⟨target, batch, result⟩]), after.journal⟩)

namespace Action

def forget {ε : Type} (world : World ε (σ × ρ)) : World ε σ :=
  ⟨world.files, world.remote.1, world.journal⟩

/-- An action does the same as another one, but for a record that is kept beside the database. -/
def Mirrors {ε : Type} (kept : Action ε (σ × ρ) α) (action : Action ε σ α) : Prop :=
  ∀ world, action.perform (forget world) = ((kept.perform world).1, forget (kept.perform world).2)

namespace Mirrors

variable {ε : Type} {kept : Action ε (σ × ρ) α} {action : Action ε σ α}

theorem pure (value : α) :
    Mirrors (Pure.pure value : Action ε (σ × ρ) α) (Pure.pure value : Action ε σ α) :=
  fun _ => rfl

theorem fail (error : Error) :
    Mirrors (Action.fail error : Action ε (σ × ρ) α) (Action.fail error : Action ε σ α) :=
  fun _ => rfl

theorem emit (event : Event) :
    Mirrors (Action.emit event : Action Entry (σ × ρ) Unit) (Action.emit event : Action Entry σ Unit) :=
  fun _ => rfl

theorem recorded (execute : Executor σ) (target batch : String) :
    Mirrors (Executor.recorded execute target batch) (execute target batch) :=
  fun _ => rfl

theorem bind (first : Mirrors kept action) {next : α → Action ε (σ × ρ) β} {other : α → Action ε σ β}
    (second : ∀ value, Mirrors (next value) (other value)) : Mirrors (kept >>= next) (action >>= other) := by
  intro world
  have same := first world
  rw [perform_bind, perform_bind, same]
  generalize kept.perform world = outcome
  obtain ⟨result, after⟩ := outcome
  cases result with
  | ok value => exact second value after
  | error error => rfl

theorem attempt (mirrors : Mirrors kept action) : Mirrors kept.attempt action.attempt := by
  intro world
  rw [perform_attempt, perform_attempt, mirrors world]

theorem logged {kept : Action LogRecord (σ × ρ) α} {action : Action LogRecord σ α}
    (mirrors : Mirrors kept action) : Mirrors kept.logged action.logged := by
  intro world
  have same : action.perform ⟨(forget world).files, (forget world).remote, []⟩ = _ :=
    mirrors ⟨world.files, world.remote, []⟩
  rw [Action.logged, Action.logged, perform_within, perform_within, same]
  rfl

end Mirrors

end Action

namespace Apply

open SchemaSync.Action

/-- Applying steps with an executor that keeps a record is applying steps. -/
theorem stepsFrom_mirrors {kept : Executor (σ × ρ)} {execute : Executor σ}
    (mirrors : ∀ target batch, Mirrors (kept target batch) (execute target batch)) (target : String)
    (all done steps : List Step) :
    Mirrors (stepsFrom kept target all done steps) (stepsFrom execute target all done steps) := by
  induction steps generalizing done with
  | nil => exact .pure _
  | cons step rest ih =>
    rw [stepsFrom, stepsFrom]
    refine (mirrors target step.sql).logged.attempt.bind fun result => ?_
    cases result with
    | ok _ => exact (Mirrors.emit _).bind fun _ => ih _
    | error cause => exact (Mirrors.emit _).bind fun _ => .fail _

theorem stepsFrom_recorded (execute : Executor σ) (target : String) (all done steps : List Step) :
    Mirrors (stepsFrom (Executor.recorded execute) target all done steps)
      (stepsFrom execute target all done steps) :=
  stepsFrom_mirrors (Mirrors.recorded execute) target all done steps

/-- What an executor is asked for when it applies steps in a world. -/
def executions (execute : Executor σ) (target : String) (all : List Step) (world : World Entry σ) : List Execution :=
  ((steps (Executor.recorded execute) target all).perform ⟨world.files, (world.remote, []), world.journal⟩).2.remote.2

end Apply

end SchemaSync
