import SchemaSync.Run.Database

/-! Steps applied one after the other. The first step that fails ends the run; what was applied
before stays applied, and the failure says how much that was. -/

namespace SchemaSync

namespace Apply

variable {σ : Type}

def countIn (category : String) (steps : List Step) : Nat :=
  steps.countP (·.category == category)

/-- The failure of a step after some steps were done, out of all. -/
def failure (all done : List Step) (step : Step) (cause : Error) : StepFailure where
  step := step
  cause := cause.message
  succeeded := countIn step.category done
  categoryTotal := countIn step.category all
  executed := done.length
  total := all.length

def stepEvent (kind : EventKind) (message : String) (all done : List Step) (step : Step) :
    Event where
  kind := kind
  message := message
  category := some step.category
  current := some (done.length + 1 : Nat)
  total := some (all.length : Nat)

/-- Applies the steps that are left, after those that are done. -/
def stepsFrom (execute : Executor σ) (target : String) (all done : List Step) :
    List Step → Action Entry σ Nat
  | [] => pure done.length
  | step :: rest => do
    match ← (Action.logged (execute target step.sql)).attempt with
    | .ok () =>
      Action.emit (stepEvent .statement step.label all done step)
      stepsFrom execute target all (done ++ [step]) rest
    | .error cause =>
      let stopped := failure all done step cause
      Action.emit (stepEvent .failed stopped.message all done step)
      Action.fail (.step stopped)

def steps (execute : Executor σ) (target : String) (all : List Step) : Action Entry σ Nat :=
  stepsFrom execute target all [] all

end Apply

end SchemaSync
