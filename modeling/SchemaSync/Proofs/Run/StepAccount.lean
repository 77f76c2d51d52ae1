import SchemaSync.Proofs.Run.Asked
import SchemaSync.Proofs.Run.Reported

/-! The account of a run of steps, whatever the executor does: what it was asked for, what was reported, and what the
failure says all speak of the same step. -/

namespace SchemaSync

namespace Apply

open SchemaSync.Action

variable {σ : Type}

def reports (all done steps : List Step) : List Event :=
  steps.mapIdx fun i step => {
    kind := .statement
    message := step.label
    category := some step.category
    current := some (done.length + i + 1 : Nat)
    total := some (all.length : Nat) }

theorem reports_cons (all done : List Step) (step : Step) (rest : List Step) : reports all done (step :: rest) =
    stepEvent .statement step.label all done step :: reports all (done ++ [step]) rest := by
  rw [reports, List.mapIdx_cons, reports]
  refine congrArg (_ :: List.mapIdx · rest) (funext fun i => funext fun other => ?_)
  rw [List.length_append, List.length_singleton, Nat.add_right_comm done.length 1 i]
  rfl

def executed (target : String) (steps : List Step) : List Execution :=
  steps.map fun step => ⟨target, step.sql, .ok ()⟩

/-- The course of a run of steps when some steps were done before: either the executor does all of them, or it does
some and fails at the next one. -/
inductive Course (target : String) (all before : List Step) :
    List Step → List Execution → List Event → Except Error Nat → Prop where
  | all (steps : List Step) : Course target all before steps (executed target steps) (reports all before steps)
      (.ok (before.length + steps.length))
  | stopped (steps : List Step) (step : Step) (rest : List Step) (cause : Error) :
      Course target all before (steps ++ step :: rest) (executed target steps ++ [⟨target, step.sql, .error cause⟩])
        (reports all before steps ++
          [stepEvent .failed (failure all (before ++ steps) step cause).message all (before ++ steps) step])
        (.error (.step (failure all (before ++ steps) step cause)))

theorem Course.cons {target : String} {all before : List Step} {step : Step} {rest : List Step}
    {executions : List Execution} {events : List Event} {result : Except Error Nat}
    (course : Course target all (before ++ [step]) rest executions events result) :
    Course target all before (step :: rest) (⟨target, step.sql, .ok ()⟩ :: executions)
      (stepEvent .statement step.label all before step :: events) result := by
  cases course with
  | all =>
    have whole := @Course.all target all before (step :: rest)
    rw [reports_cons] at whole
    rwa [List.length_append, List.length_singleton, Nat.add_right_comm, Nat.add_assoc]
  | stopped steps last rest cause =>
    have whole := @Course.stopped target all before (step :: steps) last rest cause
    rw [reports_cons] at whole
    rwa [List.append_assoc]

section Step

variable {execute : Executor σ} {target : String} {all before : List Step} {step : Step} {world after : World Entry σ}
  (rest : List Step)

theorem stepsFrom_ok (ran : (logged (execute target step.sql)).perform world = (.ok (), after)) :
    (stepsFrom execute target all before (step :: rest)).perform world =
      (stepsFrom execute target all (before ++ [step]) rest).perform
        { after with journal := after.journal ++ (stepEvent .statement step.label all before step).entries } := by
  have tried : (logged (execute target step.sql)).attempt.perform world = (.ok (.ok ()), after) := by
    rw [perform_attempt, ran]
  rw [stepsFrom, perform_bind_ok tried, perform_bind_ok (perform_emit _ _)]

theorem stepsFrom_error {cause : Error}
    (ran : (logged (execute target step.sql)).perform world = (.error cause, after)) :
    (stepsFrom execute target all before (step :: rest)).perform world =
      (.error (.step (failure all before step cause)),
        { after with journal := after.journal ++
            (stepEvent .failed (failure all before step cause).message all before step).entries }) := by
  have tried : (logged (execute target step.sql)).attempt.perform world = (.ok (.error cause), after) := by
    rw [perform_attempt, ran]
  rw [stepsFrom, perform_bind_ok tried]
  rfl

end Step

section Noted

variable {ρ : Type} {execute : Executor (σ × List ρ)} {note : Execution → ρ}

def Notes (execute : Executor (σ × List ρ)) (note : Execution → ρ) : Prop :=
  ∀ target batch (world : World LogRecord (σ × List ρ)), ((execute target batch).perform world).2.remote.2 =
    world.remote.2 ++ [note ⟨target, batch, ((execute target batch).perform world).1⟩]

/-- An executor is asked once for a batch, and reports no events. -/
theorem perform_noted (notes : Notes execute note) (target batch : String) (world : World Entry (σ × List ρ)) :
    ∃ result after, (logged (execute target batch)).perform world = (result, after) ∧
      after.remote.2 = world.remote.2 ++ [note ⟨target, batch, result⟩] ∧
      reported after.journal = reported world.journal := by
  have quiet := (Tells.logged (execute target batch) world).events
  rw [List.append_nil] at quiet
  exact ⟨_, _, rfl, notes target batch ⟨world.files, world.remote, []⟩, quiet⟩

theorem stepsFrom_noted (notes : Notes execute note) (target : String) (all before steps : List Step)
    (world : World Entry (σ × List ρ)) : ∃ executions events result after,
      (stepsFrom execute target all before steps).perform world = (result, after) ∧
      after.remote.2 = world.remote.2 ++ executions.map note ∧
      reported after.journal = reported world.journal ++ events ∧
      Course target all before steps executions events result := by
  induction steps generalizing before world with
  | nil => exact ⟨_, _, _, world, rfl, (List.append_nil _).symm, (List.append_nil _).symm, .all []⟩
  | cons step rest ih =>
    obtain ⟨result, after, ran, kept, quiet⟩ := perform_noted notes target step.sql world
    cases result with
    | error cause =>
      have course := @Course.stopped target all before [] step rest cause
      rw [List.append_nil] at course
      refine ⟨[⟨target, step.sql, .error cause⟩], _, _, _, stepsFrom_error rest ran, kept, ?_, course⟩
      rw [reported_append, quiet]
      rfl
    | ok _ =>
      obtain ⟨executions, events, result, last, others, keptLater, told, course⟩ := ih (before ++ [step])
        { after with journal := after.journal ++ (stepEvent .statement step.label all before step).entries }
      refine ⟨⟨target, step.sql, .ok ()⟩ :: executions, _, result, last, (stepsFrom_ok rest ran).trans others, ?_, ?_,
        course.cons⟩
      · rw [keptLater, kept, List.append_assoc]
        rfl
      · rw [told, reported_append, quiet, List.append_assoc]
        rfl

end Noted

theorem stepsFrom_course (execute : Executor σ) (target : String) (all before steps : List Step)
    (world : World Entry (σ × List Execution)) : ∃ executions events result after,
      (stepsFrom (Executor.recorded execute) target all before steps).perform world = (result, after) ∧
      after.remote.2 = world.remote.2 ++ executions ∧ reported after.journal = reported world.journal ++ events ∧
      Course target all before steps executions events result := by
  have notes : Notes (Executor.recorded execute) id := fun _ _ _ => rfl
  simpa using stepsFrom_noted notes target all before steps world

theorem steps_leave (execute : Executor σ) (target : String) (all : List Step) (world : World Entry (σ × List Asked)) :
    ∃ executions events result, Leaves (steps execute.asked target all) world result (executions.map Asked.batch) ∧
      Course target all [] all executions events result := by
  have notes : Notes execute.asked Asked.batch := fun _ _ _ => rfl
  obtain ⟨executions, events, result, after, ran, kept, _, course⟩ := stepsFrom_noted notes target all [] all world
  exact ⟨executions, events, result, ⟨congrArg Prod.fst ran, (congrArg (·.2.remote.2) ran).trans kept⟩, course⟩

end Apply

/-- The account of a run of steps of which `done` were done. The executor was asked for each of these and for the next
one, if there is one, which failed. The events number the steps that are done, and the failure names the next one and
counts the steps before it, all of them and those of its category. -/
structure Accounted (target : String) (steps : List Step) (done : Nat) (executions : List Execution)
    (events : List Event) (result : Except Error Nat) : Prop where
  within : done ≤ steps.length
  asked : executions.map (fun execution => (execution.target, execution.batch)) =
    (steps.take (done + 1)).map fun step => (target, step.sql)
  succeeded : ∀ execution ∈ executions.take done, execution.result = .ok ()
  failed : ∀ execution ∈ executions.drop done, execution.result ≠ .ok ()
  returned : done = steps.length → result = .ok done ∧ events = Apply.reports steps [] (steps.take done)
  stopped : ∀ step, steps[done]? = some step → ∃ failure, result = .error (.step failure) ∧
    events = Apply.reports steps [] (steps.take done) ++ [{
      kind := .failed
      message := failure.message
      category := some step.category
      current := some (done + 1 : Nat)
      total := some (steps.length : Nat) }] ∧
    failure.step = step ∧ failure.executed = done ∧ failure.total = steps.length ∧
    failure.succeeded = (steps.take done).countP (·.category == step.category) ∧
    failure.categoryTotal = steps.countP (·.category == step.category) ∧
    failure.succeeded < failure.categoryTotal ∧ failure.categoryTotal ≤ steps.length ∧
    failure.succeeded ≤ failure.executed ∧ failure.executed < steps.length

open Apply in
theorem Apply.Course.accounted {target : String} {steps : List Step} {executions : List Execution} {events : List Event}
    {result : Except Error Nat} (course : Course target steps [] steps executions events result) :
    ∃ done, Accounted target steps done executions events result := by
  cases course with
  | all =>
    refine ⟨steps.length, ?_, ?_, ?_, ?_, ?_, ?_⟩
    · exact Nat.le_refl _
    · rw [List.take_of_length_le (Nat.le_succ _), executed, List.map_map]
      rfl
    · intro execution member
      obtain ⟨step, _, rfl⟩ := List.mem_map.mp (List.mem_of_mem_take member)
      rfl
    · intro execution member
      rw [executed, List.drop_of_length_le (by simp)] at member
      cases member
    · intro _
      rw [List.take_length, List.length_nil, Nat.zero_add]
      exact ⟨rfl, rfl⟩
    · intro step found
      simp at found
  | stopped before step rest cause =>
    have front : (before ++ step :: rest).take before.length = before := List.take_left
    have next : (before ++ step :: rest).take (before.length + 1) = before ++ [step] := by
      rw [List.append_cons]
      exact List.take_left' (by simp)
    have length : (executed target before).length = before.length := List.length_map _
    refine ⟨before.length, ?_, ?_, ?_, ?_, ?_, ?_⟩
    · simp
    · rw [next, List.map_append, List.map_append, executed, List.map_map]
      rfl
    · rw [← length, List.take_left]
      intro execution member
      obtain ⟨step, _, rfl⟩ := List.mem_map.mp member
      rfl
    · rw [← length, List.drop_left]
      intro execution member
      rw [List.mem_singleton.mp member]
      exact fun ended => by cases ended
    · intro whole
      simp at whole
    · intro other found
      obtain rfl : step = other := by simpa using found
      refine ⟨_, rfl, by rw [front]; rfl, rfl, rfl, rfl, ?_, rfl, ?_, ?_, ?_, ?_⟩
      · rw [front]
        rfl
      · show before.countP _ < (before ++ step :: rest).countP _
        rw [List.countP_append, List.countP_cons_of_pos (by simp)]
        omega
      · exact List.countP_le_length
      · exact List.countP_le_length
      · show before.length < _
        simp

open Apply in
/-- However an executor behaves, applying steps asks it for each step once and in order up to the first failure, and
the result and the events account for that exactly. -/
theorem steps_accounted {σ : Type} (execute : Executor σ) (target : String) (steps : List Step)
    (world : World Entry σ) :
    ∃ done events,
      reported ((Apply.steps execute target steps).perform world).2.journal = reported world.journal ++ events ∧
      Accounted target steps done (executions execute target steps world) events
        ((Apply.steps execute target steps).perform world).1 := by
  obtain ⟨kept, events, result, after, ran, record, told, course⟩ :=
    stepsFrom_course execute target steps [] steps ⟨world.files, (world.remote, []), world.journal⟩
  have same : (Apply.steps execute target steps).perform world = _ :=
    stepsFrom_recorded execute target steps [] steps ⟨world.files, (world.remote, []), world.journal⟩
  have asked : executions execute target steps world = kept := by
    rw [executions, Apply.steps, ran, record, List.nil_append]
  rw [ran] at same
  obtain ⟨done, accounted⟩ := course.accounted
  rw [same, asked]
  exact ⟨done, events, told, accounted⟩

end SchemaSync
